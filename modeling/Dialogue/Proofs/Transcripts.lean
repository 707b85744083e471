import Dialogue.Proofs.Roster

/-! Transcripts: what a number of requests comes to, and what is logged meanwhile, also if the host takes the log. -/

namespace Dialogue
namespace Session
variable {s t u : Session} {e : Seconds}

/-- What has been logged by a request that has led from one session to the other. -/
def logged (s t : Session) : List Event := t.events.toList.drop s.events.size

/-- The session after some requests, and what they have logged. -/
def performs (s : Session) : List Request → Option (Session × List Event)
  | [] => some (s, [])
  | request :: requests => do
    let t ← s.respond request
    let (u, log) ← t.performs requests
    return (u, s.logged t ++ log)

/-! ### What is logged -/

theorem logged_eq {log : List Event} (h : t.events.toList = s.events.toList ++ log) : s.logged t = log := by
  rw [logged, h, ← Array.length_toList, List.drop_left]

theorem logged_of_events (h : t.events = s.events) : s.logged t = [] := logged_eq (by simp [h])

theorem Registers.logged (h : Registers s t) : t.events.toList = s.events.toList ++ s.logged t := by
  obtain ⟨log, hlog, -⟩ := h
  rw [logged_eq hlog, hlog]

/-- Every request adds to the log, apart from the one that takes it. -/
theorem events_respond {request : Request} (hrequest : request ≠ .op .takeEvents) (h : s.respond request = some t) :
    t.events.toList = s.events.toList ++ s.logged t := by
  cases request with
  | edit world =>
    cases h
    exact (Registers.calm rfl rfl rfl).logged
  | op op =>
    obtain ⟨⟨u, reply⟩, hstep, rfl⟩ := Option.map_eq_some_iff.mp h
    exact (Registers.step (fun hop => hrequest (hop ▸ rfl)) hstep).logged

/-! ### One request after the other -/

variable {request : Request} {requests requests' : List Request} {log log' : List Event}

theorem performs_cons_eq_some_iff : s.performs (request :: requests) = some (u, log) ↔
    ∃ t log', s.respond request = some t ∧ t.performs requests = some (u, log') ∧ s.logged t ++ log' = log := by
  simp only [performs, Option.bind_eq_bind, Option.bind_eq_some_iff, Option.pure_def, Option.some.injEq, Prod.exists,
    Prod.mk.injEq]
  constructor
  · rintro ⟨t, ht, v, log', hv, rfl, hlog⟩
    exact ⟨t, log', ht, hv, hlog⟩
  · rintro ⟨t, log', ht, hu, hlog⟩
    exact ⟨t, ht, u, log', hu, rfl, hlog⟩

theorem performs_append (h : s.performs requests = some (t, log)) (h' : t.performs requests' = some (u, log')) :
    s.performs (requests ++ requests') = some (u, log ++ log') := by
  induction requests generalizing s log with
  | nil =>
    cases h
    exact h'
  | cons request requests ih =>
    obtain ⟨r, rest, hr, hrest, rfl⟩ := performs_cons_eq_some_iff.mp h
    exact performs_cons_eq_some_iff.mpr ⟨r, rest ++ log', hr, ih hrest, (List.append_assoc _ _ _).symm⟩

theorem performs_singleton (h : s.respond request = some t) : s.performs [request] = some (t, s.logged t) :=
  performs_cons_eq_some_iff.mpr ⟨t, [], h, rfl, List.append_nil _⟩

/-- What requests log is added to the log, unless they take it. -/
theorem events_performs (hrequests : .op .takeEvents ∉ requests) (h : s.performs requests = some (t, log)) :
    t.events.toList = s.events.toList ++ log := by
  induction requests generalizing s log with
  | nil =>
    cases h
    exact (List.append_nil _).symm
  | cons request requests ih =>
    obtain ⟨hfirst, hrest⟩ := not_or.mp (mt List.mem_cons.mpr hrequests)
    obtain ⟨u, log', hu, hperforms, rfl⟩ := performs_cons_eq_some_iff.mp h
    rw [ih hrest hperforms, events_respond (Ne.symm hfirst) hu, List.append_assoc]

end Session
end Dialogue

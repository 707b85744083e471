import Dialogue.Proofs.Answering
import Dialogue.Proofs.Stops
import Dialogue.Proofs.Waiting

/-! Choices that are not shown any more. There is one place for what the player is asked, whichever lane asks. So another
    choice takes it, also one that has nothing to offer, and when that one is answered nothing is asked at all, while the
    list that plays during the first choice goes on. The player can answer a choice exactly as long as no other one has
    been carried out since (`choice_answerable_iff`). -/

namespace Dialogue
namespace Session
variable {p s t u : Session} {id : LaneId} {l : Lane} {e dt : Seconds} {ref : ActionRef} {a : Action ListId} {k : Choice}
variable {inside : Choice.Inside} {below cursors : List Cursor} {answers : List (Answer ListId)} {meanwhile : ListId}
variable {name? : Option String} {ops : List Op} {c : Conversation} {P : Cursor → Prop}

/-! ### What the player is asked -/

/-- While a choice waits, a move leaves it asked unless another one is carried out, and does not ask it again. -/
theorem Move.asks_iff {log : List Event} (h : Move s t) (hlane : s.cursors? k.lane = some cursors)
    (hlayered : k.Layered below P inside.topics cursors) (hlog : t.events.toList = s.events.toList ++ log)
    (hwaits : t.Waits k) : t.choice = some k ↔ s.choice = some k ∧ ∀ event ∈ log, event.isChoice = false := by
  have hnoted : ∀ {lane ref label rest}, log = .dispatched lane ref label :: rest → label = "player_choice" →
      t.choice ≠ some k → (t.choice = some k ↔ s.choice = some k ∧ ∀ event ∈ log, event.isChoice = false) := by
    rintro lane ref label rest rfl rfl hother
    exact iff_of_false hother fun hquiet => Bool.true_eq_false.mp (hquiet.2 _ List.mem_cons_self)
  cases h.asking with
  | asked h =>
    obtain ⟨_, _, _, hkind, -⟩ := h.kind
    refine hnoted (List.append_cancel_left (hlog.symm.trans h.effect.log)) (Action.label_of_choice hkind) fun heq => ?_
    -- No place of the lane is given twice while the first choice waits there.
    obtain rfl := Option.some.inj (h.choice.symm.trans heq)
    obtain rfl := Option.some.inj (h.at_.lane.symm.trans hlane)
    have hdepth := h.depth
    have hlength := hlayered.length_eq
    omega
  | skipped h =>
    obtain ⟨_, _, _, hkind, -⟩ := h.kind
    refine hnoted (List.append_cancel_left (hlog.symm.trans h.effect.log)) (Action.label_of_choice hkind) ?_
    rw [h.choice]
    nofun
  | silent hlog' hquiet hchoice =>
    obtain rfl := List.append_cancel_left (hlog.symm.trans hlog')
    rw [and_iff_left hquiet]
    rcases hchoice with hkept | ⟨hnone, hgone⟩
    · rw [hkept]
    · -- What is asked is cleared only together with the list that it names.
      exact iff_of_false (by rw [hnone]; nofun) fun hask => hgone k hask hwaits

/-- A choice that waits is asked as long as no other one is carried out. -/
theorem Moves.asks_iff {log : List Event} (h : Moves s t) (hs : s.Sound) (hk : s.choice = some k)
    (hlane : s.cursors? k.lane = some cursors) (hlayered : k.Layered below (IsMeanwhile k) inside.topics cursors)
    (hlog : t.events.toList = s.events.toList ++ log) (hthere : (log.foldlM k.read inside).isSome) :
    t.choice = some k ↔ ∀ event ∈ log, event.isChoice = false := by
  induction h generalizing log with
  | refl =>
    obtain rfl := List.self_eq_append_right.mp hlog
    simp [hk]
  | @tail r t hmoves hmove ih =>
    obtain ⟨log', hlog', htells⟩ := Moves.tells hmoves hs hlane hlayered
    obtain ⟨log'', hlog''⟩ := hmove.log
    obtain rfl : log = log' ++ log'' := by
      rw [← hlog'', hlog', List.append_assoc] at hlog
      exact (List.append_cancel_left hlog).symm
    have hwaits : t.Waits k := by
      obtain ⟨all, hall, htells⟩ := Moves.tells (.tail hmoves hmove) hs hlane hlayered
      obtain rfl := List.append_cancel_left (hall.symm.trans hlog)
      exact (htells (.inl hthere)).waits_iff.mpr hthere
    rw [List.foldlM_append] at hthere
    obtain ⟨_, hboth⟩ := Option.isSome_iff_exists.mp hthere
    obtain ⟨inside', hread, -⟩ := Option.bind_eq_some_iff.mp hboth
    rw [hread] at htells
    obtain ⟨cursors', hlane', hlayered'⟩ := htells (.inl rfl)
    rw [hmove.asks_iff hlane' hlayered' hlog''.symm hwaits, ih hlog' (Option.isSome_of_eq_some hread),
      List.forall_mem_append]

/-- Carrying out a choice with something to offer asks the player. -/
theorem Carries.asks (h : p.Carries id e l ref a) (hp : p.Sound) (hscript : p.hasScript)
    (hkind : a.kind = .choice answers meanwhile name?) (hoffers : offered p.world answers ≠ []) :
    ∃ k t, p.pass id e = some t ∧ k.lane = id ∧ k.depth = l.depth + 1 ∧ k.action = ref ∧
      k.offers = offered p.world answers ∧ t.choice = some k ∧ t.Sound ∧
      t.events.toList =
        (p.opened id).events.toList ++ [.dispatched id ref "player_choice", .entered id (.script meanwhile)] ∧
      ∃ cursors, t.cursors? id = some cursors ∧
        k.Layered l.cursors (IsMeanwhile k) ({} : Choice.Inside).topics cursors := by
  obtain ⟨chance, hchance⟩ := hp.scripted
  let r := (p.opened id).changeLane id fun k => { k with waiting := false, time := l.time + e }
  let last : Option LastPlayed := some { topic := l.topic?, action := ref }
  have hcarried : p.carried id e l ref a = r.note id ref a last := rfl
  have halike : Alike p (p.carried id e l ref a) := .carried
  have hworld : r.world = p.world := halike.world
  have hopened : Turns p (p.opened id) := (start_course trivial hscript).trans (endBrokenLoop_course trivial)
  have hclock : Effect id ((p.opened id).cursors? id) [] (p.opened id) r := .clock fun _ => rfl
  have hlane : (p.opened id).cursors? id = some l.cursors := by
    rw [cursors?, h.lane]
    rfl
  rw [hlane] at hclock
  have hat : r.At id l.cursors ref a := hclock.at_ ⟨hlane, h.next, h.action⟩
  have hsince : Since p r := hopened.since.trans hclock.since
  have hpass := pass_of_choice h hchance hkind
  rw [hcarried] at hpass
  rcases hat.asks_or_skips last (hsince.script.hasScript.trans hscript) hkind with
    ⟨k, cur, rfl, rfl, hlist, hasks⟩ | ⟨cur, hskips⟩
  case inr =>
    obtain ⟨_, _, _, hkind', hnone⟩ := hskips.kind
    cases hkind.symm.trans hkind'
    exact absurd (hworld ▸ hnone) hoffers
  obtain ⟨_, _, _, hkind', hoffered⟩ := hasks.kind
  cases hkind.symm.trans hkind'
  let asked := (r.note k.lane k.action a last).ask k.lane k.action answers meanwhile
  have hprime : Effect k.lane (asked.cursors? k.lane) [] asked (asked.changeLane k.lane Lane.prime) := .clock fun _ => rfl
  have heffect := hasks.effect.trans hprime
  refine ⟨k, _, hpass, rfl, hasks.depth, rfl, hworld ▸ hoffered, ?_, hp.later (hsince.trans heffect.since), ?_, ?_⟩
  · rw [← hasks.choice]
    cases k.lane <;> rfl
  · have hopen : r.events = (p.opened k.lane).events := by
      simp only [r]
      cases k.lane <;> rfl
    rw [heffect.log, hopen, Action.label_of_choice hkind, hlist]
    rfl
  · exact ⟨_, heffect.lane.trans hasks.effect.lane, hasks.layered⟩

/-- A choice with something to offer is carried out in an update. Whatever the host does then, the log since the choice
    tells whether the list that plays meanwhile is still there, as long as the choice is not carried out once more. While
    that list is there, the player can answer the choice exactly if no other one has been carried out since, on whatever
    lane. -/
theorem choice_answerable_iff (hs : Reachable c s) (hdue : s.Due (.op (.update dt)) p id e)
    (hcarries : p.Carries id e l ref a) (hkind : a.kind = .choice answers meanwhile name?)
    (hoffers : offered p.world answers ≠ []) (hupdate : s.update dt = some u) (hops : ∀ op ∈ ops, op.Plays)
    (ht : u.steps ops = some t) :
    ∃ k since, k.lane = id ∧ k.depth = l.depth + 1 ∧ k.action = ref ∧ k.offers = offered p.world answers ∧
      t.events.toList = (p.opened id).events.toList ++
        .dispatched id ref "player_choice" :: .entered id (.script meanwhile) :: since ∧
      ((∀ label, .dispatched id ref label ∉ since) → (t.Waits k ↔ (since.foldlM k.read {}).isSome)) ∧
      ((since.foldlM k.read {}).isSome →
        t.Waits k ∧ (t.choice = some k ↔ ∀ event ∈ since, event.isChoice = false)) := by
  obtain ⟨-, -, -, hsound⟩ := hs.moves
  obtain ⟨hp, hscript⟩ := hdue.sound hsound
  obtain ⟨k, r, hpass, rfl, hdepth, rfl, hoffered, hchoice, hr, hlog, cursors, hlane, hlayered⟩ :=
    hcarries.asks hp hscript hkind hoffers
  obtain ⟨visits, r', hchain, hturns⟩ := hdue.rest hsound hupdate
  have hplain : p.sideTopic? a = none := sideTopic?_eq_none fun _ _ hcall => by cases hkind.symm.trans hcall
  obtain rfl : r' = r := Option.some.inj ((hchain.pass_of_carries hcarries hplain).symm.trans hpass)
  have hmoves : Moves r' t := hturns.moves.trans (steps_moves (hr.later hturns.since) hops ht)
  obtain ⟨since, hsince, htells⟩ := hmoves.tells hr hlane hlayered
  refine ⟨k, since, rfl, hdepth, rfl, hoffered, by rw [hsince, hlog]; simp, fun hnot => ?_, fun hthere => ?_⟩
  · exact (htells (.inr hnot)).waits_iff
  · exact ⟨(htells (.inl hthere)).waits_iff.mpr hthere, hmoves.asks_iff hr hchoice hlane hlayered hsince hthere⟩

end Session

/-- Two side lanes, each of which asks, while the main lane waits for its time. -/
def Document.questions : Document where
  profiles := []
  values := .empty
  gameCommands := .empty
  files := [{
    id := "tale"
    topics := [
      { id := "both"
        block := ⟨[
          { kind := .cue (.snippet none "first" true) },
          { kind := .cue (.snippet none "second" true) },
          { delay := 60, kind := .cue (.comment "later") }]⟩ },
      { id := "first"
        block := ⟨[
          { kind := .cue (.comment "hm") },
          { kind := .choice [⟨"yes", none, ⟨[]⟩⟩] ⟨[{ kind := .cue (.comment "well?") }]⟩ none }]⟩ },
      { id := "second"
        block := ⟨[
          { kind := .cue (.comment "hm") },
          { kind := .choice [⟨"no", none, ⟨[]⟩⟩] ⟨[{ kind := .cue (.comment "well?") }]⟩ none }]⟩ }] }]

/-- The first lane still asks when the choice of the second one has been answered, but nobody can answer it. -/
theorem choice_answerable_iff_questions :
    ∃ c s u t l ref a answers meanwhile name? k since, Document.questions.load = .ok c ∧ Session.Reachable c s ∧
      s.Due (.op (.update 1)) (s.aged 1) (.side 1) 1 ∧ (s.aged 1).Carries (.side 1) 1 l ref a ∧
      a.kind = .choice answers meanwhile name? ∧ Session.offered (s.aged 1).world answers ≠ [] ∧ s.update 1 = some u ∧
      u.steps [.update 1, .select 0, .update 1] = some t ∧ k.lane = .side 1 ∧ k.action = ref ∧
      t.events.toList = ((s.aged 1).opened (.side 1)).events.toList ++
        .dispatched (.side 1) ref "player_choice" :: .entered (.side 1) (.script meanwhile) :: since ∧
      t.Waits k ∧ t.choice = none ∧ ∃ event ∈ since, event.isChoice = true := by
  have hplayed : ∃ c, Document.questions.load = .ok c ∧
      ((Session.start c (.scripted .zeros) {}).steps [.setTopic (some ⟨0⟩), .setRunning true, .update 1]).any fun s =>
        decide s.Plays && decide (s.order = [.side 1, .main]) && ((s.aged 1).carrying? (.side 1) 1).any fun x =>
          x.2.2.kind.asked?.any fun asked => decide (Session.offered (s.aged 1).world asked.1 ≠ []) &&
            (s.update 1).any fun u => (u.steps [.update 1, .select 0, .update 1]).any fun t => t.choice.isNone &&
              u.choice.any fun k => decide (k.lane = .side 1 ∧ k.depth = x.1.depth + 1 ∧ k.action = x.2.1 ∧
                k.offers = Session.offered (s.aged 1).world asked.1) &&
                ((t.events.toList.drop (((s.aged 1).opened (.side 1)).events.toList.length + 2)).foldlM k.read {}).isSome :=
    ⟨_, rfl, by decide +kernel⟩
  obtain ⟨c, s, hc, hreachable, hall⟩ := Session.exists_reachable (by simp [Session.Op.Plays]) hplayed
  simp only [Bool.and_eq_true, Option.any_eq_true, decide_eq_true_eq, Option.isNone_iff_eq_none] at hall
  obtain ⟨⟨hplays, horder⟩, ⟨l, ref, a⟩, hcarries, ⟨answers, meanwhile, name?⟩, hasked, hoffers, u, hu, t, ht, hnone,
    k, -, ⟨hlane, hdepth, hact, hoffered⟩, hthere⟩ := hall
  have hdue : s.Due (.op (.update 1)) (s.aged 1) (.side 1) 1 :=
    @Session.Due.frame s _ 1 (s.aged 1) [] [.main] (.side 1) rfl hplays horder rfl
  have hcarries := Session.carries_iff.mpr hcarries
  have hkind := Kind.asked?_eq_some.mp hasked
  obtain ⟨k', since, hlane', hdepth', hact', hoffered', hlog, -, hasks⟩ :=
    Session.choice_answerable_iff hreachable hdue hcarries hkind hoffers hu (by simp [Session.Op.Plays]) ht
  obtain rfl : k' = k := by
    cases k
    cases k'
    simp_all
  rw [hlog, List.drop_length_add_append] at hthere
  obtain ⟨hwaits, hiff⟩ := hasks hthere
  have hother : ∃ event ∈ since, event.isChoice = true := by
    by_contra hquiet
    have hsome := hiff.mpr fun event hmem => by simpa using fun h => hquiet ⟨event, hmem, h⟩
    rw [hnone] at hsome
    cases hsome
  exact ⟨c, s, u, t, l, ref, a, answers, meanwhile, name?, k', since, hc, hreachable, hdue, hcarries, hkind, hoffers, hu,
    ht, hlane, hact, hlog, hwaits, hnone, hother⟩

/-- The choice of the second lane is asked while the first one still waits for an answer, and is answered. Then nothing is
    asked, though the first lane still waits and goes on doing so. -/
theorem choice_orphaned_questions :
    ∃ c s t k, Document.questions.load = .ok c ∧ Session.Reachable c s ∧ s.choice = some k ∧ s.Waits k ∧
      s.steps [.update 1, .select 0, .update 1] = some t ∧ Session.Reachable c t ∧ t.Waits k ∧ t.choice = none := by
  have hops : ∀ op ∈ [Session.Op.update 1, .select 0, .update 1], op.Plays := by simp [Session.Op.Plays]
  have hplayed : ∃ c, Document.questions.load = .ok c ∧
      ((Session.start c (.scripted .zeros) {}).steps
        [.setTopic (some ⟨0⟩), .setRunning true, .update 1, .update 1]).any fun s => s.choice.any fun k =>
          decide (s.Waits k) && (s.steps [.update 1, .select 0, .update 1]).any fun t =>
            decide (t.Waits k) && t.choice.isNone :=
    ⟨_, rfl, by decide +kernel⟩
  obtain ⟨c, s, hc, hreachable, hall⟩ := Session.exists_reachable (by simp [Session.Op.Plays]) hplayed
  simp only [Bool.and_eq_true, Option.any_eq_true, decide_eq_true_eq, Option.isNone_iff_eq_none] at hall
  obtain ⟨k, hk, hbefore, t, ht, hafter, hnone⟩ := hall
  exact ⟨c, s, t, k, hc, hreachable, hk, hbefore, ht, hreachable.steps hops ht, hafter, hnone⟩

end Dialogue

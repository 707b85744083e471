import Dialogue.Proofs.Stops
import Dialogue.Proofs.Transcripts

/-! Reports of runs. A run is a number of frames, and a frame is a number of ordinary requests (`Frame.Plays`). What is
    logged by all these requests is reported, event by event and in order, and choices are answered from the list as they
    come (`report_frames`). -/

namespace Dialogue

/-! ### Frames -/

/-- The offer that is wanted; the first one, if there is no such offer. -/
def Choice.pick (c : Choice) (wanted : Nat) : Nat := if wanted < c.offers.length then wanted else 0

/-- The requests by which time passes in a frame. -/
def Limits.passing (l : Limits) : List Session.Request :=
  .op (.update l.step) :: if l.fastForward then [.op .fastForward] else []

/-- What is done in a frame besides letting time pass. -/
structure Frame where
  /-- The choice that has been given, and the offer that is selected. -/
  answered : Option (Choice × Nat)
  /-- Whether the main lane goes on after a text for the host. -/
  goesOn : Bool

namespace Frame

def requests (l : Limits) (f : Frame) : List Session.Request :=
  l.passing ++ (f.answered.toList.map (fun x => .op (.select x.2)) ++
    (.op .takeInfo :: (if f.goesOn then [.op .advance] else []) ++ [.op .takeEvents]))

/-- A frame leads from a running session to another session. What the player is asked when time has passed is answered,
    and nothing is asked any more in the end. -/
structure Plays (l : Limits) (f : Frame) (s : Session) (log : List Event) (t : Session) : Prop where
  running : s.running
  performs : s.performs (f.requests l) = some (t, log)
  asked : ∃ p log, s.performs l.passing = some (p, log) ∧ p.choice = f.answered.map (·.1)
  settled : t.choice = none

/-- Frames lead from one session to another, one after the other. -/
inductive PlayAll (l : Limits) (s : Session) : List Frame → List Event → Session → Prop where
  | start : PlayAll l s [] [] s
  | next {frames : List Frame} {f : Frame} {log log' : List Event} {t u : Session} (h : PlayAll l s frames log t)
      (hf : f.Plays l t log' u) : PlayAll l s (frames ++ [f]) (log ++ log') u

/-- The choices of some frames, with the offers that are selected. -/
def answers (frames : List Frame) : List (Choice × Nat) := frames.filterMap (·.answered)

end Frame

namespace Session
variable {s t : Session}

theorem choice_advance (id : LaneId) : (s.advance id).choice = s.choice := by
  by_cases hscript : s.hasScript
  · exact (quiet_advance hscript).choice
  · simp [advance, hscript]

/-- A choice is over once one of its offers has been selected. -/
theorem choice_select {c : Choice} {index : Nat} (hc : s.choice = some c) (hindex : index < c.offers.length) :
    (s.select index).1.choice = none := by
  unfold select
  simp only [hc, List.getElem?_eq_getElem hindex]
  split
  · rfl
  · rename_i u hu
    obtain ⟨cursors, -, -, hunwind, hquiet⟩ := unwind_effect hu
    obtain ⟨-, -, hquiet'⟩ := answer_effect c.offers[index] hunwind.lane
    exact hquiet'.choice.trans hquiet.choice

end Session

namespace Run
variable {l : Limits} {r r' : Run} {s : Session} {frames : List Frame} {log : List Event}

/-! ### One frame -/

theorem performs_passing {s t u : Session} (hs : t.update l.step = some s)
    (hu : (if l.fastForward then (·.1) <$> s.fastForward else some s) = some u) :
    ∃ log, t.performs l.passing = some (u, log) := by
  have hfirst : t.respond (.op (.update l.step)) = some s := by simp [Session.respond, Session.step, hs]
  unfold Limits.passing
  split at hu
  · rename_i hskips
    obtain ⟨⟨u, count⟩, hfast, rfl⟩ := Option.map_eq_some_iff.mp hu
    have hsecond : s.respond (.op .fastForward) = some u := by simp [Session.respond, Session.step, hfast]
    rw [if_pos hskips]
    exact ⟨_, Session.performs_cons_eq_some_iff.mpr ⟨s, _, hfirst, Session.performs_singleton hsecond, rfl⟩⟩
  · rename_i hskips
    cases hu
    rw [if_neg hskips]
    exact ⟨_, Session.performs_singleton hfirst⟩

/-- A choice is answered by the next number of the list. -/
theorem performs_answerChoice (r : Run) :
    ∃ answered log, r.session.performs (answered.toList.map fun x => .op (.select x.2)) =
        some (r.answerChoice.session, log) ∧
      r.session.choice = answered.map (·.1) ∧ r.answerChoice.session.choice = none ∧
      (∀ c n, answered = some (c, n) → n = c.pick (r.choices.headD 0)) ∧
      r.answerChoice.choices = r.choices.drop answered.toList.length := by
  unfold answerChoice
  split
  · rename_i hnone
    exact ⟨none, [], rfl, hnone, hnone, nofun, rfl⟩
  · rename_i c hc
    have hpick : c.pick (r.choices.headD 0) < c.offers.length := by
      unfold Choice.pick
      split
      · assumption
      · exact List.length_pos_iff.mpr c.offers_ne
    refine ⟨some (c, c.pick (r.choices.headD 0)), _, Session.performs_singleton rfl, hc, Session.choice_select hc hpick,
      fun c n h => ?_, ?_⟩
    · cases h
      rfl
    · exact List.drop_one.symm

theorem performs_acknowledge (r : Run) :
    ∃ (goesOn : Bool) (log : _), r.session.performs (.op .takeInfo :: if goesOn then [.op .advance] else []) =
        some (r.acknowledge.session, log) ∧
      r.acknowledge.session.choice = r.session.choice ∧ r.acknowledge.choices = r.choices := by
  have htaken : r.session.respond (.op .takeInfo) = some { r.session with info := none } := rfl
  unfold acknowledge
  split
  · rename_i hnone
    have hsame : ({ r.session with info := none } : Session) = r.session := by rw [← hnone]
    rw [hsame] at htaken
    exact ⟨false, _, Session.performs_singleton htaken, rfl, rfl⟩
  · simp only
    split
    · have hgoes : r.session.performs [.op .takeInfo, .op .advance] = some (_, _) :=
        Session.performs_cons_eq_some_iff.mpr ⟨_, _, htaken, Session.performs_singleton rfl, rfl⟩
      exact ⟨true, _, hgoes, Session.choice_advance .main, trivial⟩
    · exact ⟨false, _, Session.performs_singleton htaken, rfl, trivial⟩

theorem log_acknowledge (r : Run) :
    r.answerChoice.acknowledge.frame = r.frame ∧ r.answerChoice.acknowledge.log = r.log := by
  have hanswer : r.answerChoice.frame = r.frame ∧ r.answerChoice.log = r.log := by
    unfold answerChoice
    split <;> exact ⟨rfl, rfl⟩
  have htext : ∀ p : Run, p.acknowledge.frame = p.frame ∧ p.acknowledge.log = p.log := by
    intro p
    unfold acknowledge
    split <;> exact ⟨rfl, rfl⟩
  exact ⟨(htext _).1.trans hanswer.1, (htext _).2.trans hanswer.2⟩

/-- The entries for what has been logged in a frame. -/
def entries (first frame : Nat) (log : List Event) : List Logged :=
  log.mapIdx fun i event => { sequence := first + i, frame, event }

theorem events_entries (first frame : Nat) (log : List Event) : (entries first frame log).map (·.event) = log :=
  List.ext_getElem? fun i => by simp [entries, Function.comp_def]

theorem sequence_entries {first frame : Nat} {log : List Event} {i : Nat} {x : Logged}
    (h : (entries first frame log)[i]? = some x) : x.sequence = first + i ∧ x.frame = frame := by
  rw [entries, List.getElem?_mapIdx] at h
  obtain ⟨event, -, rfl⟩ := Option.map_eq_some_iff.mp h
  exact ⟨rfl, rfl⟩

/-- What a frame adds to a run. -/
theorem next_frame (hrunning : r.session.running) (h : r.next l = some r') :
    ∃ (f : Frame) (log : _), f.Plays l r.session log r'.session ∧ r'.frame = r.frame + 1 ∧ r'.session.events = #[] ∧
      r'.log.toList = r.log.toList ++ entries r.log.size (r.frame + 1) (r.session.events.toList ++ log) ∧
      r'.choices = r.choices.drop f.answered.toList.length ∧
      ∀ c n, f.answered = some (c, n) → n = c.pick (r.choices.headD 0) := by
  rw [next_eq] at h
  obtain ⟨p, hp, rfl⟩ := Option.map_eq_some_iff.mp h
  obtain ⟨s, hs, hrest⟩ := Option.bind_eq_some_iff.mp hp
  obtain ⟨t, ht, rfl⟩ := Option.map_eq_some_iff.mp hrest
  obtain ⟨log₁, hpassing⟩ := performs_passing hs ht
  obtain ⟨answered, log₂, hanswer, hasked, hsettled, hpick, hchoices⟩ :=
    performs_answerChoice { r with session := t, frame := r.frame + 1 }
  obtain ⟨goesOn, log₃, htext, hchoice, hsame⟩ :=
    performs_acknowledge ({ r with session := t, frame := r.frame + 1 } : Run).answerChoice
  obtain ⟨hframe, hlog⟩ := log_acknowledge { r with session := t, frame := r.frame + 1 }
  generalize ({ r with session := t, frame := r.frame + 1 } : Run).answerChoice.acknowledge = p at *
  -- The events are taken at the end, with all that has been logged before.
  have hbefore := Session.performs_append hpassing (Session.performs_append hanswer htext)
  have hevents : p.session.events.toList = r.session.events.toList ++ (log₁ ++ (log₂ ++ log₃)) :=
    Session.events_performs (by unfold Limits.passing; cases goesOn <;> split <;> simp) hbefore
  have htaken : p.session.performs [.op .takeEvents] = some (p.collect.session, []) := by
    have hnothing : p.session.logged p.collect.session = [] := List.drop_nil
    exact hnothing ▸ Session.performs_singleton rfl
  refine ⟨⟨answered, goesOn⟩, log₁ ++ (log₂ ++ log₃), ⟨hrunning, ?_, ⟨t, log₁, hpassing, hasked⟩, hchoice.trans hsettled⟩,
    hframe, rfl, ?_, hsame.trans hchoices, hpick⟩
  · have hwhole := Session.performs_append hbefore htaken
    rw [List.append_nil, List.append_assoc, List.append_assoc] at hwhole
    exact hwhole
  · rw [← hevents]
    simp [collect, entries, hframe, hlog]

/-! ### Runs -/

/-- What a run has noted of the frames that have been played. -/
structure Keeps (l : Limits) (s : Session) (frames : List Frame) (log : List Event) (r : Run) : Prop where
  plays : Frame.PlayAll l s frames log r.session
  frame : frames.length = r.frame
  events : r.log.toList.map (·.event) ++ r.session.events.toList = s.events.toList ++ log
  numbered : ∀ (i : Nat) (x : Logged), r.log.toList[i]? = some x → x.sequence = i ∧ 1 ≤ x.frame ∧ x.frame ≤ r.frame
  ordered : (r.log.toList.map (·.frame)).Pairwise (· ≤ ·)
  choices : r.choices = l.choices.drop (Frame.answers frames).length
  picked : ∀ (k : Nat) (c : Choice) (n : Nat), (Frame.answers frames)[k]? = some (c, n) → n = c.pick (l.choices.getD k 0)

namespace Keeps

theorem start : Keeps l s [] [] (.start s l) where
  plays := .start
  frame := rfl
  events := (List.append_nil _).symm
  numbered := nofun
  ordered := .nil
  choices := rfl
  picked := nofun

theorem next (hkeeps : Keeps l s frames log r) (hrunning : r.session.running) (h : r.next l = some r') :
    ∃ f log', Keeps l s (frames ++ [f]) (log ++ log') r' := by
  obtain ⟨f, log', hplays, hframe, htaken, hlog, hchoices, hpick⟩ := next_frame hrunning h
  have hanswers : Frame.answers (frames ++ [f]) = Frame.answers frames ++ f.answered.toList := by
    rw [Frame.answers, List.filterMap_append]
    cases hanswered : f.answered <;> simp [Frame.answers, hanswered]
  refine ⟨f, log', .next hkeeps.plays hplays, ?_, ?_, fun i x hx => ?_, ?_, ?_, fun k c n hn => ?_⟩
  · rw [List.length_append, hkeeps.frame, hframe, List.length_singleton]
  · rw [hlog, htaken, List.map_append, events_entries, ← List.append_assoc, hkeeps.events]
    simp
  · rw [hlog, List.getElem?_append] at hx
    split at hx
    · obtain ⟨hsequence, hlow, hhigh⟩ := hkeeps.numbered i x hx
      exact ⟨hsequence, hlow, by omega⟩
    · rename_i hlate
      obtain ⟨hsequence, hnow⟩ := sequence_entries hx
      rw [Array.length_toList] at hlate hsequence
      exact ⟨by omega, by omega, by omega⟩
  · -- Entries of earlier frames come first.
    have hnow : ∀ x ∈ entries r.log.size (r.frame + 1) (r.session.events.toList ++ log'), x.frame = r.frame + 1 := by
      intro x hx
      obtain ⟨i, hi⟩ := List.mem_iff_getElem?.mp hx
      exact (sequence_entries hi).2
    rw [hlog, List.map_append, List.pairwise_append]
    refine ⟨hkeeps.ordered, List.pairwise_of_forall_mem_list ?_, ?_⟩ <;> simp only [List.forall_mem_map]
    · intro x hx y hy
      exact Nat.le_of_eq ((hnow x hx).trans (hnow y hy).symm)
    · intro x hx y hy
      obtain ⟨i, hi⟩ := List.mem_iff_getElem?.mp hx
      obtain ⟨-, -, hbefore⟩ := hkeeps.numbered i x hi
      rw [hnow y hy]
      exact Nat.le_succ_of_le hbefore
  · rw [hchoices, hkeeps.choices, hanswers, List.drop_drop, List.length_append]
  · rw [hanswers, List.getElem?_append] at hn
    split at hn
    · exact hkeeps.picked k c n hn
    · rename_i hlate
      obtain ⟨more, rfl⟩ := Nat.exists_eq_add_of_le (Nat.le_of_not_lt hlate)
      rw [Nat.add_sub_cancel_left] at hn
      have hanswered : f.answered = some (c, n) := Option.mem_toList.mp (List.mem_of_getElem? hn)
      have hlast : more = 0 := by
        have hmore := (List.getElem?_eq_some_iff.mp hn).1
        rw [hanswered] at hmore
        exact Nat.lt_one_iff.mp hmore
      rw [hpick c n hanswered, hkeeps.choices, hlast, Nat.add_zero, List.headD_eq_head?_getD, List.head?_drop,
        List.getD_eq_getElem?_getD]

theorem play {left : Nat} (hkeeps : Keeps l s frames log r) (h : r.play l left = some r') :
    ∃ frames log, Keeps l s frames log r' := by
  induction left generalizing r frames log with
  | zero =>
    cases h
    exact ⟨frames, log, hkeeps⟩
  | succ left ih =>
    rw [Run.play] at h
    split at h
    · rename_i hrunning
      split at h
      · cases h
      · rename_i p hp
        obtain ⟨f, log', hkeeps⟩ := hkeeps.next hrunning hp
        exact ih hkeeps h
    · cases h
      exact ⟨frames, log, hkeeps⟩

end Keeps

/-- A run goes on until the session has stopped or all frames have been played. -/
theorem play_frame {left : Nat} (h : r.play l left = some r') :
    r'.frame ≤ r.frame + left ∧ (r'.session.running = false ∨ r'.frame = r.frame + left) := by
  induction left generalizing r with
  | zero =>
    cases h
    exact ⟨Nat.le_refl _, .inr rfl⟩
  | succ left ih =>
    rw [Run.play] at h
    split at h
    · rename_i hrunning
      split at h
      · cases h
      · rename_i p hp
        obtain ⟨-, -, -, hframe, -⟩ := next_frame hrunning hp
        have hnext : r.frame + (left + 1) = p.frame + left := by omega
        exact hnext ▸ ih h
    · rename_i hstopped
      cases h
      exact ⟨Nat.le_add_right _ _, .inl (Bool.eq_false_iff.mpr hstopped)⟩

/-- The report of a run tells what has happened in it. No more frames are played than there is time for, and fewer only if
    the session stops. The events that have been waiting in the session, and all that are logged in the frames, are
    reported in their order, apart from those that are still in the session; they are numbered from zero, and their frames,
    which are among those that have been played, do not go back. Whatever the player is asked when time has passed in a
    frame is answered in that frame: the `k`th time with the `k`th number of the list, if there are so many offers, and
    otherwise with the first offer. -/
theorem report_frames (h : s.run l = some r) (topic : String) :
    (r.report l topic).frames ≤ l.maxFrames ∧
    (r.session.running = false ∨ (r.report l topic).frames = l.maxFrames) ∧
    (∀ (i : Nat) (x : Logged), (r.report l topic).events[i]? = some x →
      x.sequence = i ∧ 1 ≤ x.frame ∧ x.frame ≤ (r.report l topic).frames) ∧
    ((r.report l topic).events.map (·.frame)).Pairwise (· ≤ ·) ∧
    ∃ frames log, Frame.PlayAll l s frames log r.session ∧ frames.length = (r.report l topic).frames ∧
      (r.report l topic).events.map (·.event) ++ r.session.events.toList = s.events.toList ++ log ∧
      ∀ (k : Nat) (c : Choice) (n : Nat), (Frame.answers frames)[k]? = some (c, n) → n = c.pick (l.choices.getD k 0) := by
  obtain ⟨frames, log, hkeeps⟩ := Keeps.start.play h
  obtain ⟨hle, hstops⟩ := play_frame h
  have hzero : (Run.start s l).frame + l.maxFrames = l.maxFrames := Nat.zero_add _
  rw [hzero] at hle hstops
  exact ⟨hle, hstops, hkeeps.numbered, hkeeps.ordered, frames, log, hkeeps.plays, hkeeps.frame, hkeeps.events,
    hkeeps.picked⟩

end Run

/-- Two questions, of which the first one is held up by a line. -/
def Document.tavern : Document where
  profiles := [{ id := "ann", alias? := none, parameters := .empty, commands := .empty }]
  values := .empty
  gameCommands := .empty
  files := [{
    id := "tale"
    topics := [
      { id := "tavern"
        block := ⟨[
          { kind := .cue (.speak "ann" (some "well") 2 []) },
          { kind := .choice [⟨"ale", none, ⟨[]⟩⟩, ⟨"wine", none, ⟨[]⟩⟩] ⟨[]⟩ none },
          { kind := .choice [⟨"stay", none, ⟨[]⟩⟩, ⟨"leave", none, ⟨[]⟩⟩] ⟨[]⟩ none }]⟩ }] }]

/-- Nobody has to be listened to, and the second answer makes no sense. -/
def Limits.hasty : Limits := { frameRate := 1, maxSeconds := 9, fastForward := true, choices := [1, 7] }

/-- Both questions are answered, and the run is over before its time. -/
theorem report_frames_tavern :
    ∃ c r frames log, Document.tavern.load = .ok c ∧ (Session.playing c .zeros {} ⟨0⟩).run .hasty = some r ∧
      r.session.running = false ∧ r.frame < Limits.hasty.maxFrames ∧
      Frame.PlayAll .hasty (Session.playing c .zeros {} ⟨0⟩) frames log r.session ∧ frames.length = r.frame ∧
      r.log.toList.map (·.event) = .rewound :: log ∧ log.filter (fun | .selected _ => true | _ => false) =
        [.selected 1, .selected 0] := by
  have hplayed : ∃ c, Document.tavern.load = .ok c ∧ ((Session.playing c .zeros {} ⟨0⟩).run .hasty).any fun r =>
      !r.session.running && decide (r.frame < Limits.hasty.maxFrames) && r.session.events.toList.isEmpty &&
        decide ((r.log.toList.map (·.event)).filter (fun | .selected _ => true | _ => false) =
          [.selected 1, .selected 0]) :=
    ⟨_, rfl, by decide +kernel⟩
  obtain ⟨c, hc, hplayed⟩ := hplayed
  obtain ⟨r, hr, hall⟩ := (Option.any_eq_true _ _).mp hplayed
  simp only [Bool.and_eq_true, Bool.not_eq_true', decide_eq_true_eq, List.isEmpty_iff, and_assoc] at hall
  obtain ⟨hstopped, hframe, hempty, hselected⟩ := hall
  obtain ⟨-, -, -, -, frames, log, hplays, hlength, hevents, -⟩ := Run.report_frames hr "tale/tavern"
  have hlog : r.log.toList.map (·.event) = .rewound :: log := by
    have hall : r.log.toList.map (·.event) ++ r.session.events.toList =
        (Session.playing c .zeros {} ⟨0⟩).events.toList ++ log := hevents
    rwa [hempty, List.append_nil, Session.events_playing] at hall
  refine ⟨c, r, frames, log, hc, hr, hstopped, hframe, hplays, hlength, hlog, ?_⟩
  rwa [hlog] at hselected

end Dialogue

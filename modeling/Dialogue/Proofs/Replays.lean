import Dialogue.Proofs.Pasts
import Dialogue.Proofs.Roots

/-! Starting over. Nothing is left of what has been played, whatever that was: the session is determined by what it plays,
    for whom and how. So what is played afterwards does not depend on it either (`rewind_erases`). -/

namespace Dialogue
namespace Session
variable {s t : Session}

/-- The session with nothing logged, and with a source of random numbers that is always the same. -/
def withoutPast (s : Session) : Session :=
  { s with interpreter := s.interpreter.seeded (some .zeros), events := #[] }

theorem withoutPast_after {p : Past} : (s.after p).withoutPast = s.withoutPast := by
  rw [withoutPast, withoutPast, after]
  cases s.interpreter <;> rfl

/-- The sessions agree in everything that starting over does not touch, apart from the log and the source of random
    numbers. -/
structure Agrees (s t : Session) : Prop where
  conversation : t.conversation = s.conversation
  interpreter : ∃ chance?, t.interpreter = s.interpreter.seeded chance?
  options : t.options = s.options
  topic : t.topic = s.topic
  preview : t.preview = s.preview
  nextSide : t.nextSide = s.nextSide
  world : t.world = s.world
  running : t.running = s.running
  paused : t.paused = s.paused

/-! ### What is left -/

theorem advance_empty (h : s.main = {}) :
    s.advance .main = { s with main := { cursors := s.root?.toList }, running := s.running && s.hasScript } := by
  by_cases hscript : s.hasScript
  · simp [advance, hscript, lane?, h, changeLane, Lane.prime]
  · rw [advance, if_neg hscript, root?_eq_none hscript, Bool.eq_false_iff.mpr hscript, Bool.and_false]
    cases s
    cases h
    rfl

/-- Every part of a session that has been played is given a new value by starting over. -/
theorem rewind_eq : s.rewind =
    { s with
      main := { cursors := s.root?.toList }
      sides := []
      slots := List.replicate s.world.actors.length {}
      info := none
      choice := none
      camera := {}
      lastPlayed := none
      running := s.running && s.hasScript
      events := s.events.push .rewound } := by
  have hslots : (s.slots.take s.world.actors.length ++
      List.replicate (s.world.actors.length - s.slots.length) ({} : Speech)).map (fun _ => ({} : Speech)) =
        List.replicate s.world.actors.length {} := by
    rw [List.map_const', List.length_append, List.length_take, List.length_replicate]
    congr 1
    omega
  rw [← hslots]
  exact advance_empty rfl

theorem Agrees.lists (h : Agrees s t) : SameLists s t := ⟨h.conversation, h.topic, h.preview⟩

/-- Sessions that agree are the same once they have started over. -/
theorem Agrees.rewind (h : Agrees s t) :
    t.rewind = { s.rewind with interpreter := t.interpreter, events := t.rewind.events } := by
  rw [rewind_eq, rewind_eq, h.lists.root?, h.lists.hasScript, h.conversation, h.options, h.topic, h.preview, h.nextSide,
    h.world, h.running, h.paused]

theorem rewind_interpreter : s.rewind.interpreter = s.interpreter := by rw [rewind_eq]

/-- What is requested afterwards leads to the same and logs the same. -/
theorem Agrees.performs {requests : List Request} (h : Agrees s t)
    (hdraws : s.rewind.drawsAlong requests → t.interpreter = s.interpreter) :
    (t.rewind.performs requests).map (fun x => (x.1.withoutPast, x.2)) =
      (s.rewind.performs requests).map fun x => (x.1.withoutPast, x.2) := by
  obtain ⟨chance?, hchance, hsame⟩ : ∃ chance?, t.interpreter = s.interpreter.seeded chance? ∧
      (t.interpreter = s.interpreter → chance? = none) := by
    by_cases hsame : t.interpreter = s.interpreter
    · exact ⟨none, by rw [hsame, Interpreter.seeded_none], fun _ => rfl⟩
    · obtain ⟨chance?, hchance⟩ := h.interpreter
      exact ⟨chance?, hchance, fun heq => absurd heq hsame⟩
  -- Both sessions are one session, with nothing logged, that has been given a past.
  obtain ⟨b, hb⟩ : ∃ b : Session, b = { s.rewind with events := #[] } := ⟨_, rfl⟩
  have hs : s.rewind = b.after ⟨s.rewind.events, none⟩ := by
    rw [hb, after, Interpreter.seeded_none, Array.append_empty]
  have ht : t.rewind = b.after ⟨t.rewind.events, chance?⟩ := by
    rw [h.rewind, hb, after, Array.append_empty, rewind_interpreter, hchance]
  rw [hs, drawsAlong_after] at hdraws
  obtain ⟨p, -, hp⟩ := b.performs_after ⟨s.rewind.events, none⟩ (fun _ : b.drawsAlong requests => rfl)
  obtain ⟨q, -, hq⟩ := b.performs_after ⟨t.rewind.events, chance?⟩ fun hb => hsame (hdraws hb)
  rw [hs, ht, hp, hq, Option.map_map, Option.map_map]
  congr 1
  funext x
  rw [Function.comp_apply, Function.comp_apply, withoutPast_after, withoutPast_after]

theorem next_root? {root : Cursor} (h : s.root? = some root) : root.next = 0 := by
  unfold Session.root? at h
  split at h
  · cases h
    rfl
  · obtain ⟨topic, -, hcur⟩ := Option.bind_eq_some_iff.mp h
    obtain ⟨found, -, rfl⟩ := Option.map_eq_some_iff.mp hcur
    rfl

/-- Starting over erases what has been played. Sessions that agree in what starting over does not touch are the same
    afterwards, apart from the log and the source of random numbers, and whatever is requested then leads to the same and
    logs the same, unless a number is drawn from different sources. The main lane is at the first action of what there is
    to play, there are no side lanes, everybody is silent, and the world is as it has been. -/
theorem rewind_erases (h : Agrees s t) :
    t.rewind = { s.rewind with interpreter := t.interpreter, events := t.rewind.events } ∧
    (∀ requests, (s.rewind.drawsAlong requests → t.interpreter = s.interpreter) →
      (t.rewind.performs requests).map (fun x => (x.1.withoutPast, x.2)) =
        (s.rewind.performs requests).map fun x => (x.1.withoutPast, x.2)) ∧
    s.rewind.main = { cursors := s.root?.toList } ∧
    (s.root?.isSome ↔
      s.preview.isSome ∨ ∃ topic found, s.topic = some topic ∧ s.conversation.topic? topic = some found) ∧
    (∀ root, s.root? = some root → root.next = 0 ∧
      if s.preview.isSome then root.list = .preview ∧ root.topic = none
      else ∃ topic found, s.topic = some topic ∧ s.conversation.topic? topic = some found ∧
        root.list = .script found.root ∧ root.topic = some topic) ∧
    s.rewind.sides = [] ∧
    s.rewind.slots = List.replicate s.world.actors.length {} ∧
    s.rewind.world = s.world := by
  refine ⟨h.rewind, fun _ => h.performs, ?_, root?_isSome_iff, fun root hroot => ⟨next_root? hroot, root?_eq_some hroot⟩,
    ?_, ?_, ?_⟩
  · rw [rewind_eq]
  · rw [rewind_eq]
  · rw [rewind_eq]
  · rw [rewind_eq]

end Session

/-- A line, a shot and a question, with a lamp that flickers meanwhile. -/
def Document.arcade : Document where
  profiles := [{ id := "ann", alias? := none, parameters := .empty, commands := .empty }]
  values := .empty
  gameCommands := .empty
  files := [{
    id := "tale"
    topics := [
      { id := "arcade"
        block := ⟨[
          { kind := .cue (.snippet none "lamp" true) },
          { kind := .cue (.speak "ann" (some "well") 2 []) },
          { kind := .cue (.cameraShot "neon" 4) },
          { kind := .choice
              [⟨"bet", none, ⟨[{ kind := .cue (.setVariable "luck" ⟨.random, ⟨6, none⟩⟩) }]⟩⟩,
                ⟨"leave", none, ⟨[{ kind := .cue (.comment "door") }]⟩⟩]
              ⟨[]⟩ none }]⟩ },
      { id := "lamp"
        block := ⟨[{ delay := 9, kind := .cue (.comment "flicker") }]⟩ }] }]

def Actor.bea : Actor where
  id := "bea"
  alias? := none
  parameters := .empty
  commands := .empty

/-- The line is still being said when somebody comes. -/
def Session.glancing : List Session.Op := [
  .setTopic (some ⟨0⟩), .setRunning true, .update 1, .update 1, .world (.addActor .bea)]

/-- The question has been asked, and somebody has been there all the time. -/
def Session.lingering : List Session.Op := [
  .setTopic (some ⟨0⟩), .world (.addActor .bea), .setRunning true, .update 1, .update 1, .update 2, .update 1, .update 1]

/-- Everything is played once more up to an answer. -/
def Session.returning (index : Nat) : List Session.Request := [
  .op (.update 1), .op (.update 1), .op .fastForward, .op (.update 1), .op (.select index), .op .takeEvents,
  .op (.update 1)]

/-- Whether numbers are drawn from sources that differ in what comes next. -/
def Interpreter.differs : Interpreter → Interpreter → Bool
  | .scripted chance, .scripted other => other.numbers 0 != chance.numbers 0
  | _, _ => false

theorem Interpreter.seeded_of_differs {i j : Interpreter} (h : i.differs j) :
    (∃ chance?, j = i.seeded chance?) ∧ j ≠ i := by
  cases i with
  | scripted chance =>
    cases j with
    | scripted other =>
      refine ⟨⟨some other, rfl⟩, ?_⟩
      rintro heq
      obtain rfl := Interpreter.scripted.inj heq
      simp [differs] at h
    | recording => cases h
  | recording => cases h

/-- Different parts have been played, with different sources of random numbers, but as no bet is made, it is all the
    same. -/
theorem rewind_erases_arcade :
    ∃ c s t past past', Document.arcade.load = .ok c ∧ Session.Rests c Session.IsTopicLane [] past s ∧
      Session.Rests c Session.IsTopicLane [] past' t ∧ s.Agrees t ∧ t.interpreter ≠ s.interpreter ∧
      s.choice = none ∧ t.choice.isSome ∧ s.slots.length = 1 ∧ t.slots.length = 2 ∧
      s.rewind.drawsAlong (Session.returning 0) = true ∧ s.rewind.drawsAlong (Session.returning 1) = false ∧
      ∃ u u' log, s.rewind.performs (Session.returning 1) = some (u, log) ∧
        t.rewind.performs (Session.returning 1) = some (u', log) ∧ u'.withoutPast = u.withoutPast ∧ .selected 1 ∈ log := by
  have hplayed : ∃ c, Document.arcade.load = .ok c ∧
      ((Session.start c (.scripted .zeros) {}).steps Session.glancing).any fun s =>
        ((Session.start c (.scripted (.cons 5 .zeros)) {}).steps Session.lingering).any fun t =>
          s.interpreter.differs t.interpreter &&
          decide (t.options = s.options ∧ t.topic = s.topic ∧ t.nextSide = s.nextSide ∧ t.world = s.world ∧
            t.running = s.running ∧ t.paused = s.paused ∧ s.preview.isNone ∧ t.preview.isNone) &&
          decide (s.choice = none ∧ t.choice.isSome ∧ s.slots.length = 1 ∧ t.slots.length = 2 ∧
            s.rewind.drawsAlong (Session.returning 0) = true ∧ s.rewind.drawsAlong (Session.returning 1) = false) &&
          (s.rewind.performs (Session.returning 1)).any fun x => decide (.selected 1 ∈ x.2) :=
    ⟨_, rfl, by decide +kernel⟩
  obtain ⟨c, hc, hplayed⟩ := hplayed
  obtain ⟨s, hs, hplayed⟩ := (Option.any_eq_true _ _).mp hplayed
  obtain ⟨t, ht, hplayed⟩ := (Option.any_eq_true _ _).mp hplayed
  simp only [Bool.and_eq_true, decide_eq_true_eq, Option.isNone_iff_eq_none, and_assoc] at hplayed
  obtain ⟨hdiffers, hoptions, htopic, hnext, hworld, hrunning, hpaused, hspreview, htpreview, hschoice, htchoice, hsslots,
    htslots, hbet, hleave, hlater⟩ := hplayed
  obtain ⟨⟨u, log⟩, hu, hselected⟩ := (Option.any_eq_true _ _).mp hlater
  have hstart : ∀ chance, Session.Rests c Session.IsTopicLane [] [] (.start c (.scripted chance) {}) := fun chance =>
    .start (.scripted chance) {}
  obtain ⟨past, hrests⟩ := (hstart _).steps (by simp [Session.glancing]) hs
  obtain ⟨past', hrests'⟩ := (hstart _).steps (by simp [Session.lingering]) ht
  have hconversation : ∀ {past s}, Session.Rests c Session.IsTopicLane [] past s → s.conversation = c := fun h =>
    (h.arises fun _ _ h => h).regular.conversation
  have hagrees : s.Agrees t := {
    conversation := (hconversation hrests').trans (hconversation hrests).symm
    interpreter := (Interpreter.seeded_of_differs hdiffers).1
    options := hoptions
    topic := htopic
    preview := htpreview.trans hspreview.symm
    nextSide := hnext
    world := hworld
    running := hrunning
    paused := hpaused }
  obtain ⟨-, hperforms, -⟩ := Session.rewind_erases hagrees
  have hsame := hperforms (Session.returning 1) fun hdraws => by simp [hleave] at hdraws
  rw [hu, Option.map_some] at hsame
  obtain ⟨⟨u', log'⟩, hu', heq⟩ := Option.map_eq_some_iff.mp hsame
  obtain ⟨hstate, rfl⟩ := Prod.mk.inj heq
  exact ⟨c, s, t, past, past', hc, hrests, hrests', hagrees, (Interpreter.seeded_of_differs hdiffers).2, hschoice,
    htchoice, hsslots, htslots, hbet, hleave, u, u', log', hu, hu', hstate, of_decide_eq_true hselected⟩

end Dialogue

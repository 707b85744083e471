import Mathlib.Logic.Relation
import Dialogue.Proofs.Sessions

/-! The single things that happen while a session is played, each of them on one lane (`Turn`). A pass is a number of
    turns on its own lane and on lanes that are added meanwhile (`passWithin_course`), so what every turn keeps is kept
    by every update. -/

namespace Dialogue

/-! ### Actions -/

/-- Commands, triggers and actors coming and going, which may be held for the host. -/
def Action.isCommand {L : Type} (a : Action L) : Bool :=
  match a.kind with
  | .cue (.actorCommand _ _) | .cue (.gameCommand _) | .cue (.trigger _ _) | .cue (.addActor _ _)
  | .cue (.removeActor _) => true
  | _ => false

/-- The cue that an action gives, if it is one. -/
def Action.cue? {L : Type} (a : Action L) : Option Cue :=
  match a.kind with
  | .cue cue => some cue
  | _ => none

theorem Action.cue?_eq_some_iff {L : Type} {a : Action L} {cue : Cue} : a.cue? = some cue ↔ a.kind = .cue cue := by
  unfold cue?
  cases a.kind <;> simp

/-- Actions after which a lane stands elsewhere than before the next one, or the player is asked. -/
def Action.isJump {L : Type} (a : Action L) : Bool :=
  match a.kind with
  | .cue .stopConversation | .cue .stopTopic | .choice _ _ _ => true
  | _ => false

/-- The lane that an event is about. -/
def Event.lane? : Event → Option LaneId
  | .dispatched lane _ _ | .entered lane _ | .left lane | .loopCancelled lane _ | .loopEnded lane _ => some lane
  | _ => none

/-- An event of the lane, or of none, but not that everything starts over. -/
def Event.IsAbout (id : LaneId) (e : Event) : Prop := e.lane? = some id ∨ e.lane? = none ∧ e ≠ .rewound

/-- A lane that is in no list within another one, and in no loop. -/
def Lane.IsFresh (l : Lane) : Prop := l.cursors.length ≤ 1 ∧ ∀ cur ∈ l.cursors, cur.looping = false

namespace Session
variable {s t u : Session}

/-- What the player is asked, the text for the host and whether the session runs are the same. -/
structure Quiet (s t : Session) : Prop where
  choice : t.choice = s.choice
  info : t.info = s.info
  running : t.running = s.running

theorem Quiet.trans (h : Quiet s t) (h' : Quiet t u) : Quiet s u :=
  ⟨h'.choice.trans h.choice, h'.info.trans h.info, h'.running.trans h.running⟩

/-- The lane with these cursors is about to carry out an action. -/
structure At (s : Session) (id : LaneId) (cursors : List Cursor) (ref : ActionRef) (a : Action ListId) : Prop where
  lane : s.cursors? id = some cursors
  next : (Lane.mk cursors true 0).action? = some ref
  action : s.action? ref = some a

/-- The lane with these cursors may go on: its action is done with, or it is at the end of an inner list. -/
def GoesOn (s : Session) (id : LaneId) (cursors : List Cursor) : Prop :=
  (∃ ref a, s.At id cursors ref a ∧ a.isJump = false ∧ (a.isCommand = true → s.options.autoAdvance = true)) ∨
  (∃ outer top, cursors = outer ++ [top] ∧ outer ≠ [] ∧ top.action? = none ∧ top.looping = false)

/-- The event of a lane that goes on. -/
def leaving (id : LaneId) (cursors : List Cursor) : List Event :=
  if (Lane.mk cursors true 0).advance.2 then [.left id] else []

/-- The cursors of a lane whose topic is stopped, before it goes on. -/
def stopping (cursors : List Cursor) : List Cursor :=
  ((Lane.mk cursors true 0).leaveToTopic.changeTop Cursor.forwardLast).cursors

/-- The answers whose conditions hold. -/
def offered (w : World) (answers : List (Answer ListId)) : List Offer :=
  (answers.zipIdx.filter fun (a, _) => a.condition.all (·.holds w)).map fun (a, i) => { text := a.text, option := i }

/-- The player is asked `k` by an action that enters a list with `cur`. -/
structure Asks (k : Choice) (cursors : List Cursor) (a : Action ListId) (cur : Cursor) (s t : Session) : Prop where
  at_ : s.At k.lane cursors k.action a
  kind : ∃ answers meanwhile name, a.kind = .choice answers meanwhile name ∧ k.offers = offered s.world answers
  depth : k.depth = cursors.length + 1
  looping : cur.looping = true
  parent : cur.parent = some k.action
  topic : cur.topic = none
  effect : Effect k.lane (some (cursors ++ [cur])) [.dispatched k.lane k.action a.label, .entered k.lane cur.list] s t
  choice : t.choice = some k
  info : t.info = s.info
  running : t.running = s.running

/-- A choice enters a list with `cur`, but has nothing to offer, and the lane goes on. -/
structure Skips (id : LaneId) (cursors : List Cursor) (ref : ActionRef) (a : Action ListId) (cur : Cursor)
    (s t : Session) : Prop where
  at_ : s.At id cursors ref a
  kind : ∃ answers meanwhile name, a.kind = .choice answers meanwhile name ∧ offered s.world answers = []
  parent : cur.parent = some ref
  topic : cur.topic = none
  effect : Effect id (some (Lane.mk (cursors ++ [cur]) true 0).advance.1.cursors)
    (.dispatched id ref a.label :: .entered id cur.list :: leaving id (cursors ++ [cur])) s t
  choice : t.choice = none
  info : t.info = s.info
  running : t.running = s.running

/-- A turn on the lane `id`. -/
inductive Turn (id : LaneId) (s t : Session) : Prop where
  | calm (h : Effect id (s.cursors? id) [] s t) (hq : Quiet s t)
  /-- The main lane starts at the root. -/
  | rooted (hmain : id = .main) (hempty : s.main.cursors = []) (h : Effect id (some s.root?.toList) [] s t)
      (hq : Quiet s t)
  /-- A loop is over. -/
  | closed {cursors d} (hlane : s.cursors? id = some cursors) (hd : cursors.findIdx? s.isBroken = some d)
      (h : Effect id (some ((cursors.take (d + 1)).modify d fun c => c.release.forwardEnd)) [.loopEnded id d] s t)
      (hq : Quiet s t)
  /-- An action is noted. -/
  | noted {cursors ref a} (hat : s.At id cursors ref a) (hplain : a.isJump = false)
      (h : Effect id (some cursors) [.dispatched id ref a.label] s t) (hq : Quiet s t)
  | actorRemoved {name} (h : Effect id (s.cursors? id) [.actorRemoved name] s t) (hq : Quiet s t)
  /-- The lane goes on. -/
  | moved {cursors} (hlane : s.cursors? id = some cursors) (hgo : s.GoesOn id cursors)
      (h : Effect id (some (Lane.mk cursors true 0).advance.1.cursors) (leaving id cursors) s t) (hq : Quiet s t)
  /-- An action enters a list, which is that of a topic if the action calls one. -/
  | entered {cursors ref a cur} (hat : s.At id cursors ref a) (hplain : a.isJump = false) (hfree : a.isCommand = false)
      (htopic : cur.topic.isSome = (a.label == "snippet")) (hparent : cur.parent = some ref)
      (h : Effect id (some (cursors ++ [cur])) [.dispatched id ref a.label, .entered id cur.list] s t) (hq : Quiet s t)
  /-- The player is asked. -/
  | asked {k cursors a cur} (hid : k.lane = id) (h : Asks k cursors a cur s t)
  /-- A choice has nothing to offer. -/
  | skipped {cursors ref a cur} (h : Skips id cursors ref a cur s t)
  /-- A command is held for the host. -/
  | held {cursors ref a} (hat : s.At id cursors ref a) (hcommand : a.isCommand = true)
      (hauto : s.options.autoAdvance = false) (hnoted : .dispatched id ref a.label ∈ s.events.toList)
      (h : Effect id (some cursors) [] s t) (hchoice : t.choice = s.choice) (hrunning : t.running = s.running)
  /-- Nobody can say a line. -/
  | refused (h : Effect id (s.cursors? id) [] s t) (hchoice : t.choice = s.choice) (hrunning : t.running = false)
  /-- The conversation is stopped. -/
  | stopped {cursors ref a} (hat : s.At id cursors ref a) (hkind : a.kind = .cue .stopConversation)
      (h : Effect id (some (((Lane.mk cursors true 0).truncate 1).changeTop Cursor.forwardEnd).cursors)
        [.dispatched id ref a.label] s t) (hchoice : t.choice = s.choice) (hrunning : t.running = s.running)
  /-- A topic is stopped. -/
  | topicStopped {cursors ref a} (hat : s.At id cursors ref a) (hkind : a.kind = .cue .stopTopic)
      (h : Effect id (some (Lane.mk (stopping cursors) true 0).advance.1.cursors)
        (.dispatched id ref a.label :: leaving id (stopping cursors)) s t) (hq : Quiet s t)
  /-- A side lane is added at the start of a topic. -/
  | added {l} (hid : id = .side s.nextSide) (hfresh : Lane.IsFresh l)
      (h : Effect id (some l.cursors) [.laneAdded s.nextSide] s t) (hq : Quiet s t)
  /-- A side lane is removed. -/
  | removed {n} (hid : id = .side n) (hshort : ∀ cursors, s.cursors? id = some cursors → cursors.length ≤ 1)
      (h : Effect id none [.laneRemoved n] s t) (hq : Quiet s t)
  /-- Playback ends. -/
  | ended (hmain : id = .main) (h : Effect id (s.cursors? id) [.ended] s t) (hchoice : t.choice = s.choice)
      (hinfo : t.info = s.info) (hrunning : t.running = false)

/-- A number of turns on some lanes. -/
def Course (lanes : LaneId → Prop) : Session → Session → Prop :=
  Relation.ReflTransGen fun s t => ∃ id, lanes id ∧ Turn id s t

variable {id other : LaneId} {cursors : List Cursor} {ref : ActionRef} {a : Action ListId} {lanes : LaneId → Prop}

theorem mem_leaving {e : Event} (h : e ∈ leaving id cursors) : e = .left id := by
  unfold leaving at h
  split at h
  · exact List.mem_singleton.mp h
  · cases h

/-! ### What every turn keeps -/

theorem isAbout_leaving {e : Event} (h : e ∈ leaving id cursors) : e.IsAbout id := .inl (mem_leaving h ▸ rfl)

theorem Turn.about (h : Turn id s t) : ∃ now log, Effect id now log s t ∧ ∀ e ∈ log, e.IsAbout id := by
  cases h with
  | asked hid h => exact hid ▸ ⟨_, _, h.effect, by simp [Event.IsAbout, Event.lane?]⟩
  | skipped h =>
    exact ⟨_, _, h.effect, by simpa [Event.IsAbout, Event.lane?] using fun e he => isAbout_leaving he⟩
  | moved _ _ h => exact ⟨_, _, h, fun e he => isAbout_leaving he⟩
  | topicStopped _ _ h =>
    exact ⟨_, _, h, by simpa [Event.IsAbout, Event.lane?] using fun e he => isAbout_leaving he⟩
  | calm h | rooted _ _ h | closed _ _ h | noted _ _ h | actorRemoved h | entered _ _ _ _ _ h | held _ _ _ _ h
  | refused h | stopped _ _ h | added _ _ h | removed _ _ h | ended _ h =>
    exact ⟨_, _, h, by simp [Event.IsAbout, Event.lane?]⟩

theorem Turn.effect (h : Turn id s t) : ∃ now log, Effect id now log s t := by
  obtain ⟨now, log, heffect, -⟩ := h.about
  exact ⟨now, log, heffect⟩

/-- A session that has stopped stays so. -/
theorem Turn.not_running (h : Turn id s t) (hs : s.running = false) : t.running = false := by
  cases h with
  | asked _ h => exact h.running.trans hs
  | skipped h => exact h.running.trans hs
  | refused _ _ hrunning | ended _ _ _ _ hrunning => exact hrunning
  | held _ _ _ _ _ _ hrunning | stopped _ _ _ _ hrunning => exact hrunning.trans hs
  | calm _ hq | rooted _ _ _ hq | closed _ _ _ hq | noted _ _ _ hq | actorRemoved _ hq | moved _ _ _ hq
  | entered _ _ _ _ _ _ hq | topicStopped _ _ _ hq | added _ _ _ hq | removed _ _ _ hq => exact hq.running.trans hs

/-- The script is the same, numbers are only given out, and the log only grows. -/
structure Since (s t : Session) : Prop where
  script : SameScript s t
  nextSide : s.nextSide ≤ t.nextSide
  numbered : s.Numbered → t.Numbered
  log : s.events.toList <+: t.events.toList

theorem Effect.since {now : Option (List Cursor)} {log : List Event} (h : Effect id now log s t) : Since s t :=
  ⟨h.script, h.nextSide, h.numbered, log, h.log.symm⟩

theorem Since.refl (s : Session) : Since s s := ⟨.refl s, Nat.le_refl _, fun h => h, List.prefix_refl _⟩

theorem Since.trans (h : Since s t) (h' : Since t u) : Since s u :=
  ⟨h.script.trans h'.script, Nat.le_trans h.nextSide h'.nextSide, h'.numbered ∘ h.numbered, h.log.trans h'.log⟩

namespace Course

theorem turn (hid : lanes id) (h : Turn id s t) : Course lanes s t := .single ⟨id, hid, h⟩

theorem trans (h : Course lanes s t) (h' : Course lanes t u) : Course lanes s u := Relation.ReflTransGen.trans h h'

theorem mono {more : LaneId → Prop} (hle : ∀ id, lanes id → more id) (h : Course lanes s t) : Course more s t :=
  Relation.ReflTransGen.mono (fun _ _ ⟨id, hid, hturn⟩ => ⟨id, hle id hid, hturn⟩) _ _ h

theorem since (h : Course lanes s t) : Since s t := by
  induction h with
  | refl => exact .refl s
  | tail _ hturn ih =>
    obtain ⟨id, -, hturn⟩ := hturn
    obtain ⟨now, log, heffect⟩ := hturn.effect
    exact ih.trans heffect.since

theorem cursors?_eq (h : Course lanes s t) (hother : ¬lanes other) : t.cursors? other = s.cursors? other := by
  induction h with
  | refl => rfl
  | tail _ hturn ih =>
    obtain ⟨id, hid, hturn⟩ := hturn
    obtain ⟨now, log, heffect⟩ := hturn.effect
    exact (heffect.others other fun heq => hother (heq ▸ hid)).trans ih

end Course

end Session
end Dialogue

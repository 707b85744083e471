import Dialogue.Proofs.Turn

/-! Passes are made of turns. What an action does is a few turns on its lane (`execute_course`), a side lane that is
    added has the turns of its first pass meanwhile, and frames are made of passes (`update_turns`). -/

namespace Dialogue
namespace Session
variable {s t u : Session} {id other : LaneId} {cursors : List Cursor} {ref : ActionRef} {a : Action ListId}
variable {lanes : LaneId → Prop}

/-! ### Actions -/

theorem Effect.at_ {log : List Event} (h : Effect id (some cursors) log s t) (hat : s.At id cursors ref a) :
    t.At id cursors ref a :=
  ⟨h.lane, hat.next, by rw [h.script.action?]; exact hat.action⟩

theorem At.ne_nil (h : s.At id cursors ref a) : cursors ≠ [] := by
  rintro rfl
  cases h.next

theorem quiet_changeLane {f : Lane → Lane} : Quiet s (s.changeLane id f) := by cases id <;> exact ⟨rfl, rfl, rfl⟩

theorem quiet_enter {cur : Cursor} : Quiet s (s.enter id cur) := by cases id <;> exact ⟨rfl, rfl, rfl⟩

theorem quiet_advance (hscript : s.hasScript) : Quiet s (s.advance id) := by
  unfold advance
  rw [hscript]
  simp only [↓reduceIte]
  split
  · exact ⟨rfl, rfl, rfl⟩
  · split
    · cases id <;> exact ⟨rfl, rfl, rfl⟩
    · split <;> cases id <;> exact ⟨rfl, rfl, rfl⟩

theorem At.advance (hat : s.At id cursors ref a) (hscript : s.hasScript) (hplain : a.isJump = false)
    (hcommand : a.isCommand = true → s.options.autoAdvance = true) : Turn id s (s.advance id) :=
  .moved hat.lane (Or.inl ⟨ref, a, hat, hplain, hcommand⟩) (.advance hscript hat.lane hat.ne_nil)
    (quiet_advance hscript)

theorem At.announce (hat : s.At id cursors ref a) (hscript : s.hasScript) (hcommand : a.isCommand = true)
    (hplain : a.isJump = false) (hnoted : .dispatched id ref a.label ∈ s.events.toList) (info : String) :
    Turn id s (s.announce id info) := by
  unfold Session.announce
  split
  · rename_i hauto
    exact hat.advance hscript hplain fun _ => hauto
  · rename_i hauto
    refine .held hat hcommand (by simpa using hauto) hnoted ?_ rfl rfl
    rw [← hat.lane]
    exact .calm id ⟨rfl, rfl, rfl, rfl, fun h => h⟩ rfl rfl rfl rfl

/-- The session when an action has been noted. -/
def note (s : Session) (id : LaneId) (ref : ActionRef) (a : Action ListId) (last : Option LastPlayed) : Session :=
  { s with lastPlayed := last }.record (.dispatched id ref a.label)

variable {last : Option LastPlayed} {start : Session → Lane → Option Session}

theorem effect_note (hat : s.At id cursors ref a) (last : Option LastPlayed) :
    Effect id (some cursors) [.dispatched id ref a.label] s (s.note id ref a last) := by
  rw [← hat.lane]
  exact ⟨⟨rfl, rfl, rfl, rfl, fun h => h⟩, rfl, fun _ _ => rfl, by simp [note, record], Nat.le_refl _, fun h => h⟩

theorem quiet_note : Quiet s (s.note id ref a last) := ⟨rfl, rfl, rfl⟩

/-- Only the stage changes. -/
structure Stage (s t : Session) : Prop where
  script : SameScript s t
  main : t.main = s.main
  sides : t.sides = s.sides
  nextSide : t.nextSide = s.nextSide
  events : t.events = s.events
  quiet : Quiet s t
  played : t.lastPlayed = s.lastPlayed

theorem Stage.refl (s : Session) : Stage s s := ⟨.refl s, rfl, rfl, rfl, rfl, ⟨rfl, rfl, rfl⟩, rfl⟩

theorem Stage.effect (h : Stage s t) (id : LaneId) : Effect id (s.cursors? id) [] s t :=
  .calm id h.script h.main h.sides h.events h.nextSide

theorem stage_speak (slot : Nat) (length : Seconds) (text : Option String) : Stage s (s.speak slot length text) := by
  unfold speak changeSpeech
  split <;> exact ⟨⟨rfl, rfl, rfl, rfl, fun h => h⟩, rfl, rfl, rfl, rfl, ⟨rfl, rfl, rfl⟩, rfl⟩

theorem stage_setVariable (chance : Chance) (name : String) (change : Change) :
    Stage s (s.setVariable chance name change) := by
  unfold setVariable
  split
  · exact .refl s
  · exact ⟨⟨rfl, rfl, rfl, rfl, fun _ => ⟨_, rfl⟩⟩, rfl, rfl, rfl, rfl, ⟨rfl, rfl, rfl⟩, rfl⟩

theorem stage_setParameter (chance : Chance) (actor name : String) (change : Change) :
    Stage s (s.setParameter chance actor name change) := by
  unfold setParameter
  split
  · exact .refl s
  · exact ⟨⟨rfl, rfl, rfl, rfl, fun _ => ⟨_, rfl⟩⟩, rfl, rfl, rfl, rfl, ⟨rfl, rfl, rfl⟩, rfl⟩

theorem stage_world (world : World) : Stage s { s with world } :=
  ⟨⟨rfl, rfl, rfl, rfl, fun h => h⟩, rfl, rfl, rfl, rfl, ⟨rfl, rfl, rfl⟩, rfl⟩

theorem stage_addActor (actor : Actor) : Stage s (s.addActor actor) :=
  ⟨⟨rfl, rfl, rfl, rfl, fun h => h⟩, rfl, rfl, rfl, rfl, ⟨rfl, rfl, rfl⟩, rfl⟩

theorem cursors?_removeActor (name : String) : (s.removeActor name).cursors? id = s.cursors? id := by
  unfold removeActor
  simp only
  split <;> rfl

theorem turn_removeActor (id : LaneId) (name : String) : Turn id s (s.removeActor name) := by
  unfold removeActor
  simp only
  split
  · exact .calm (.calm id ⟨rfl, rfl, rfl, rfl, fun h => h⟩ rfl rfl rfl rfl) ⟨rfl, rfl, rfl⟩
  · rename_i index _
    have heffect : Effect id (s.cursors? id) [.actorRemoved name] s
        ({ s.syncSlots with
          world := s.syncSlots.world.removeActor name
          slots := s.syncSlots.slots.eraseIdx index }.record (.actorRemoved name)) :=
      ⟨⟨rfl, rfl, rfl, rfl, fun h => h⟩, rfl, fun _ _ => rfl, by simp [record, syncSlots], Nat.le_refl _, fun h => h⟩
    exact .actorRemoved heffect ⟨rfl, rfl, rfl⟩

theorem At.pass (hat : s.At id cursors ref a) (hid : lanes id) (hscript : s.hasScript) (hplain : a.isJump = false)
    (hfree : a.isCommand = false) (hstage : Stage (s.note id ref a last) t) : Course lanes s (t.advance id) := by
  have hnote := effect_note hat last
  have hchange := hnote.trans (hnote.lane ▸ hstage.effect id)
  have hscript' : t.hasScript := by rw [hchange.script.hasScript]; exact hscript
  have hnoted : Turn id s t := .noted hat hplain (by simpa using hchange) (quiet_note.trans hstage.quiet)
  exact (Course.turn hid hnoted).trans
    (.turn hid ((hchange.at_ hat).advance hscript' hplain fun hcommand => by simp [hfree] at hcommand))

theorem At.later (hat : s.At id cursors ref a) (hcourse : Course lanes (s.note id ref a last) t)
    (hsame : t.cursors? id = some cursors) : t.At id cursors ref a := by
  refine ⟨hsame, hat.next, ?_⟩
  rw [hcourse.since.script.action?, (effect_note hat last).script.action?]
  exact hat.action

theorem At.hasScript_later (hat : s.At id cursors ref a) (hscript : s.hasScript)
    (hcourse : Course lanes (s.note id ref a last) t) : t.hasScript := by
  rw [hcourse.since.script.hasScript, (effect_note hat last).script.hasScript]
  exact hscript

/-- A command is noted, changes the stage, and is passed or held. -/
theorem At.tell (hat : s.At id cursors ref a) (last : Option LastPlayed) (hid : lanes id) (hscript : s.hasScript)
    (hcommand : a.isCommand = true) (hplain : a.isJump = false) (hcourse : Course lanes (s.note id ref a last) t)
    (hsame : t.cursors? id = some cursors) (info : String) : Course lanes s (t.announce id info) := by
  have hnote := effect_note hat last
  have hnoted : .dispatched id ref a.label ∈ t.events.toList :=
    hcourse.since.log.subset (by rw [hnote.log]; simp)
  exact (Course.turn hid (.noted hat hplain hnote quiet_note)).trans (hcourse.trans (Course.turn hid
    ((hat.later hcourse hsame).announce (hat.hasScript_later hscript hcourse) hcommand hplain hnoted info)))

theorem At.enter {cur : Cursor} (hat : s.At id cursors ref a) (hplain : a.isJump = false) (hfree : a.isCommand = false)
    (htopic : cur.topic.isSome = (a.label == "snippet")) (hparent : cur.parent = some ref) :
    Turn id s ((s.note id ref a last).enter id cur) := by
  have hnote := effect_note hat last
  exact .entered hat hplain hfree htopic hparent (hnote.trans (.enter hnote.lane cur))
    (quiet_note.trans quiet_enter)

/-- An answer is offered, or there is nothing to offer. -/
theorem ask_cases (s : Session) (id : LaneId) (ref : ActionRef) (answers : List (Answer ListId)) (meanwhile : ListId) :
    let t := s.enter id { s.cursor (.script meanwhile) with parent := some ref, looping := true }
    offered s.world answers = [] ∧ s.ask id ref answers meanwhile = { t with choice := none }.advance id ∨
      ∃ k : Choice, k.lane = id ∧ k.depth = (t.lane? id).elim 0 Lane.depth ∧ k.action = ref ∧
        k.offers = offered s.world answers ∧ s.ask id ref answers meanwhile = { t with choice := some k } := by
  have hworld :
      (s.enter id { s.cursor (.script meanwhile) with parent := some ref, looping := true }).world = s.world := by
    cases id <;> rfl
  unfold ask
  simp only [hworld]
  split
  · rename_i hnone
    exact Or.inl ⟨hnone, rfl⟩
  · exact Or.inr ⟨_, rfl, rfl, rfl, rfl, rfl⟩

theorem At.asks_or_skips {answers : List (Answer ListId)} {meanwhile : ListId} {name : Option String}
    (hat : s.At id cursors ref a) (last : Option LastPlayed) (hscript : s.hasScript)
    (hkind : a.kind = .choice answers meanwhile name) :
    (∃ k cur, k.lane = id ∧ k.action = ref ∧ cur.list = .script meanwhile ∧
        Asks k cursors a cur s ((s.note id ref a last).ask id ref answers meanwhile)) ∨
      ∃ cur, Skips id cursors ref a cur s ((s.note id ref a last).ask id ref answers meanwhile) := by
  have hnote := effect_note hat last
  let cur : Cursor := { (s.note id ref a last).cursor (.script meanwhile) with parent := some ref, looping := true }
  have henter := hnote.trans (.enter hnote.lane cur)
  have hquiet : Quiet s ((s.note id ref a last).enter id cur) := quiet_note.trans quiet_enter
  have hcases := ask_cases (s.note id ref a last) id ref answers meanwhile
  change let t := (s.note id ref a last).enter id cur; _ at hcases
  generalize (s.note id ref a last).enter id cur = t at henter hquiet hcases
  rcases hcases with ⟨hnothing, hnone⟩ | ⟨k, rfl, hdepth, rfl, hoffers, hsome⟩
  · -- The list that has been entered is passed over, or its first action.
    have hclear : Effect id (t.cursors? id) [] t { t with choice := none } :=
      .calm id ⟨rfl, rfl, rfl, rfl, fun h => h⟩ rfl rfl rfl rfl
    have hcleared := henter.trans hclear
    have hscript' : ({ t with choice := none } : Session).hasScript := by rw [hcleared.script.hasScript]; exact hscript
    have hgo := hcleared.trans (.advance hscript' henter.lane (by simp))
    have hquiet' : Quiet { t with choice := none } ({ t with choice := none }.advance id) := quiet_advance hscript'
    rw [hnone]
    exact .inr ⟨cur, hat, ⟨_, _, _, hkind, hnothing⟩, rfl, rfl, hgo, hquiet'.choice, hquiet'.info.trans hquiet.info,
      hquiet'.running.trans hquiet.running⟩
  · have hset : Effect k.lane (t.cursors? k.lane) [] t { t with choice := some k } :=
      .calm _ ⟨rfl, rfl, rfl, rfl, fun h => h⟩ rfl rfl rfl rfl
    have hasked := henter.trans hset
    rw [henter.lane] at hasked
    obtain ⟨l, hl, hcursors⟩ := cursors?_eq_some henter.lane
    have hdeep : k.depth = cursors.length + 1 := by
      rw [hdepth, hl, Option.elim_some, Lane.depth, hcursors, List.length_append, List.length_singleton]
    rw [hsome]
    exact .inl ⟨k, cur, rfl, rfl, rfl, hat, ⟨_, _, _, hkind, hoffers⟩, hdeep, rfl, rfl, rfl, hasked, rfl, hquiet.info,
      hquiet.running⟩

theorem At.ask {answers : List (Answer ListId)} {meanwhile : ListId} {name : Option String}
    (hat : s.At id cursors ref a) (hscript : s.hasScript) (hkind : a.kind = .choice answers meanwhile name) :
    Turn id s ((s.note id ref a last).ask id ref answers meanwhile) := by
  rcases hat.asks_or_skips last hscript hkind with ⟨_, _, hid, -, -, h⟩ | ⟨_, h⟩
  · exact .asked hid h
  · exact .skipped h

theorem stopping_ne_nil (h : cursors ≠ []) : stopping cursors ≠ [] := by
  unfold stopping Lane.leaveToTopic
  simp only [Lane.changeTop, Lane.changeAt, ne_eq, List.modify_eq_nil_iff]
  split
  · simpa using h
  · assumption

theorem At.stopTopic (hat : s.At id cursors ref a) (hscript : s.hasScript) (hkind : a.kind = .cue .stopTopic) :
    Turn id s
      (((s.note id ref a last).changeLane id fun l => l.leaveToTopic.changeTop Cursor.forwardLast).advance id) := by
  have hnote := effect_note hat last
  obtain ⟨l, hl, hcursors⟩ := cursors?_eq_some hnote.lane
  have hleave := Effect.changeLane hl fun l => l.leaveToTopic.changeTop Cursor.forwardLast
  have hkept : (l.leaveToTopic.changeTop Cursor.forwardLast).cursors = stopping cursors := by
    rw [← hcursors]
    rfl
  rw [hkept] at hleave
  have hchange := hnote.trans hleave
  have hscript' := hscript
  rw [← hchange.script.hasScript] at hscript'
  refine .topicStopped hat hkind (hchange.trans (.advance hscript' hleave.lane (stopping_ne_nil hat.ne_nil))) ?_
  exact quiet_note.trans (quiet_changeLane.trans (quiet_advance hscript'))

theorem At.stop (hat : s.At id cursors ref a) (hkind : a.kind = .cue .stopConversation) :
    Turn id s { (s.note id ref a last).changeLane id fun l => (l.truncate 1).changeTop Cursor.forwardEnd with
      info := some Info.conversationStop } := by
  have hnote := effect_note hat last
  obtain ⟨l, hl, hcursors⟩ := cursors?_eq_some hnote.lane
  have hstop := Effect.changeLane hl fun l => (l.truncate 1).changeTop Cursor.forwardEnd
  have hkept : ((l.truncate 1).changeTop Cursor.forwardEnd).cursors =
      (((Lane.mk cursors true 0).truncate 1).changeTop Cursor.forwardEnd).cursors := by
    rw [← hcursors]
    rfl
  rw [hkept] at hstop
  have hquiet : Quiet s ((s.note id ref a last).changeLane id fun l => (l.truncate 1).changeTop Cursor.forwardEnd) :=
    quiet_note.trans quiet_changeLane
  generalize ((s.note id ref a last).changeLane id fun l => (l.truncate 1).changeTop Cursor.forwardEnd) = t at *
  have hinfo : Effect id (t.cursors? id) [] t { t with info := some Info.conversationStop } :=
    .calm id ⟨rfl, rfl, rfl, rfl, fun h => h⟩ rfl rfl rfl rfl
  rw [hstop.lane] at hinfo
  exact .stopped hat hkind ((hnote.trans hstop).trans hinfo) hquiet.choice hquiet.running

theorem isFresh_topicLane (t : TopicId) (parent : Option ActionRef) : (s.topicLane t parent).IsFresh := by
  unfold topicLane topicCursor?
  cases s.conversation.topic? t <;> simp [Lane.IsFresh, cursor]

/-- Going to a topic is a number of turns, also where the lane that is started has its passes first. -/
theorem snippet_course {chance : Chance} {file : Option String} {topic : String} {sideLane : Bool} (hid : lanes id)
    (hscript : s.hasScript) (hat : s.At id cursors ref a) (hkind : a.kind = .cue (.snippet file topic sideLane))
    (hstart : ∀ l u, l.IsFresh → start (s.note id ref a last) l = some u →
      Course lanes (s.note id ref a last) u ∧ u.cursors? id = some cursors)
    (h : (s.note id ref a last).perform start chance id ref (.snippet file topic sideLane) = some t) :
    Course lanes s t := by
  have hnoted : Turn id s (s.note id ref a last) :=
    .noted hat (by simp [Action.isJump, hkind]) (effect_note hat last) quiet_note
  simp only [perform] at h
  split at h
  · cases h
    exact hat.pass hid hscript (by simp [Action.isJump, hkind]) (by simp [Action.isCommand, hkind]) (.refl _)
  · rename_i found _
    cases sideLane with
    | true =>
      obtain ⟨u, hu, hadvance⟩ := Option.bind_eq_some_iff.mp h
      cases hadvance
      obtain ⟨hcourse, hlane⟩ := hstart _ _ (isFresh_topicLane found (some ref)) hu
      have hgo := (hat.later hcourse hlane).advance (hat.hasScript_later hscript hcourse)
        (by simp [Action.isJump, hkind]) (by simp [Action.isCommand, hkind])
      exact (Course.turn hid hnoted).trans (hcourse.trans (Course.turn hid hgo))
    | false =>
      simp only [Bool.false_eq_true, ↓reduceIte] at h
      split at h
      · cases h
        exact .turn hid hnoted
      · rename_i cur hcur
        cases h
        have htopic : cur.topic = some found := by
          obtain ⟨_, _, rfl⟩ := Option.map_eq_some_iff.mp hcur
          rfl
        exact .turn hid (hat.enter (by simp [Action.isJump, hkind]) (by simp [Action.isCommand, hkind])
          (by simp [htopic, Action.label, hkind, Kind.label, Cue.label]) rfl)

/-- Carrying out a cue is a number of turns. -/
theorem perform_course {chance : Chance} {cue : Cue} (hid : lanes id) (hscript : s.hasScript)
    (hat : s.At id cursors ref a) (hkind : a.kind = .cue cue)
    (hstart : ∀ l u, l.IsFresh → start (s.note id ref a last) l = some u →
      Course lanes (s.note id ref a last) u ∧ u.cursors? id = some cursors)
    (h : (s.note id ref a last).perform start chance id ref cue = some t) : Course lanes s t := by
  have hnote := effect_note hat last
  have hnoted : a.isJump = false → Turn id s (s.note id ref a last) := fun hplain => .noted hat hplain hnote quiet_note
  have hsame : Stage (s.note id ref a last) (s.note id ref a last) := .refl _
  cases cue with
  | cameraShot name duration =>
    cases h
    exact hat.pass hid hscript (by simp [Action.isJump, hkind]) (by simp [Action.isCommand, hkind])
      ⟨⟨rfl, rfl, rfl, rfl, fun h => h⟩, rfl, rfl, rfl, rfl, ⟨rfl, rfl, rfl⟩, rfl⟩
  | speak actor text minTime words =>
    simp only [perform] at h
    split at h
    · cases h
      refine (Course.turn hid (hnoted (by simp [Action.isJump, hkind]))).trans (.turn hid (.refused ?_ rfl rfl))
      exact .calm id ⟨rfl, rfl, rfl, rfl, fun h => h⟩ rfl rfl rfl rfl
    · cases h
      exact hat.pass hid hscript (by simp [Action.isJump, hkind]) (by simp [Action.isCommand, hkind])
        (stage_speak _ _ _)
  | snippet file topic sideLane => exact snippet_course hid hscript hat hkind hstart h
  | stopConversation =>
    cases h
    exact .turn hid (hat.stop hkind)
  | stopTopic =>
    cases h
    exact .turn hid (hat.stopTopic hscript hkind)
  | setVariable name change =>
    cases h
    exact hat.pass hid hscript (by simp [Action.isJump, hkind]) (by simp [Action.isCommand, hkind])
      (stage_setVariable _ _ _)
  | setParameter actor name change =>
    cases h
    exact hat.pass hid hscript (by simp [Action.isJump, hkind]) (by simp [Action.isCommand, hkind])
      (stage_setParameter _ _ _ _)
  | actorCommand actor command =>
    cases h
    exact hat.tell last hid hscript (by simp [Action.isCommand, hkind]) (by simp [Action.isJump, hkind]) .refl
      hnote.lane _
  | gameCommand command =>
    cases h
    exact hat.tell last hid hscript (by simp [Action.isCommand, hkind]) (by simp [Action.isJump, hkind]) .refl
      hnote.lane _
  | trigger name action =>
    cases h
    refine hat.tell last hid hscript (by simp [Action.isCommand, hkind]) (by simp [Action.isJump, hkind])
      (.turn hid (.calm ((stage_world _).effect id) (stage_world _).quiet)) ?_ _
    exact hnote.lane
  | addActor actor alias? =>
    cases h
    refine hat.tell last hid hscript (by simp [Action.isCommand, hkind]) (by simp [Action.isJump, hkind]) ?_ ?_ _
    · split
      · exact .refl
      · exact .turn hid (.calm ((stage_addActor _).effect id) (stage_addActor _).quiet)
    · split
      · exact hnote.lane
      · exact hnote.lane
  | removeActor actor =>
    cases h
    refine hat.tell last hid hscript (by simp [Action.isCommand, hkind]) (by simp [Action.isJump, hkind])
      (.turn hid (turn_removeActor id actor)) ?_ _
    rw [cursors?_removeActor, hnote.lane]
  | comment text =>
    cases h
    exact hat.pass hid hscript (by simp [Action.isJump, hkind]) (by simp [Action.isCommand, hkind]) hsame

/-- Carrying out an action is a number of turns. -/
theorem execute_course (hid : lanes id) (hscript : s.hasScript) (hscripted : ∃ chance, s.interpreter = .scripted chance)
    (hat : s.At id cursors ref a)
    (hstart : ∀ l u, l.IsFresh → start (s.note id ref a last) l = some u →
      Course lanes (s.note id ref a last) u ∧ u.cursors? id = some cursors)
    (h : (s.note id ref a last).execute start id ref a = some t) : Course lanes s t := by
  obtain ⟨chance, hchance⟩ := hscripted
  have hchance' : (s.note id ref a last).interpreter = .scripted chance := hchance
  have hsame : Stage (s.note id ref a last) (s.note id ref a last) := .refl _
  cases hkind : a.kind with
  | cue cue =>
    simp only [execute, hchance', hkind] at h
    exact perform_course hid hscript hat hkind hstart h
  | ifElse cases otherwise =>
    simp only [execute, hchance', hkind] at h
    split at h
    · cases h
      exact hat.pass hid hscript (by simp [Action.isJump, hkind]) (by simp [Action.isCommand, hkind]) hsame
    · cases h
      exact .turn hid (hat.enter (by simp [Action.isJump, hkind]) (by simp [Action.isCommand, hkind])
        (by simp [cursor, Action.label, hkind, Kind.label]) rfl)
  | choice answers meanwhile name =>
    simp only [execute, hchance', hkind] at h
    cases h
    exact .turn hid (hat.ask hscript hkind)
  | wait condition body =>
    cases condition with
    | none =>
      simp only [execute, hchance', hkind] at h
      cases h
      exact hat.pass hid hscript (by simp [Action.isJump, hkind]) (by simp [Action.isCommand, hkind]) hsame
    | some condition =>
      simp only [execute, hchance', hkind] at h
      cases h
      exact .turn hid (hat.enter (by simp [Action.isJump, hkind]) (by simp [Action.isCommand, hkind])
        (by simp [cursor, Action.label, hkind, Kind.label]) rfl)

/-! ### Passes -/

theorem attempt_course {l : Lane} {e : Seconds} (hid : lanes id) (hscript : s.hasScript)
    (hscripted : ∃ chance, s.interpreter = .scripted chance) (hat : s.At id cursors ref a)
    (hstart : ∀ n l u, Since s n → n.cursors? id = some cursors → l.IsFresh → start n l = some u →
      Course lanes n u ∧ u.cursors? id = some cursors)
    (h : s.attempt start id l ref a e = some t) : Course lanes s t := by
  unfold attempt at h
  split at h
  · cases h
    exact .refl
  simp only at h
  have hclock :
      Effect id (s.cursors? id) [] s (s.changeLane id fun k => { k with waiting := false, time := l.time + e }) :=
    .clock fun _ => rfl
  rw [hat.lane] at hclock
  have htick : Turn id s (s.changeLane id fun k => { k with waiting := false, time := l.time + e }) :=
    .calm (hat.lane ▸ hclock) quiet_changeLane
  generalize (s.changeLane id fun k => { k with waiting := false, time := l.time + e }) = r at *
  split at h
  · cases h
    exact .turn hid htick
  · obtain ⟨u, hu, hprime⟩ := Option.bind_eq_some_iff.mp h
    cases hprime
    have hnote := effect_note (hclock.at_ hat) (some { topic := l.topic?, action := ref })
    have hscript' : r.hasScript := by rw [hclock.script.hasScript]; exact hscript
    have hdone : Course lanes r u := execute_course hid hscript' (hclock.script.scripted hscripted) (hclock.at_ hat)
      (fun l u hfresh hrun => hstart _ l u (hclock.since.trans hnote.since) hnote.lane hfresh hrun) hu
    exact (Course.turn hid htick).trans (hdone.trans (Course.turn hid (.calm (.clock fun _ => rfl) quiet_changeLane)))

theorem start_course (hid : lanes id) (hscript : s.hasScript) :
    Course lanes s (if id = .main ∧ s.main.cursors.isEmpty then s.advance .main else s) := by
  split
  · rename_i h
    obtain ⟨rfl, hempty⟩ := h
    have hroot : s.advance .main = s.changeLane .main fun l => { l with cursors := s.root?.toList }.prime := by
      rw [Session.advance, hscript]
      simp only [↓reduceIte, lane?, hempty]
    have heffect : Effect .main (some s.root?.toList) [] s
        (s.changeLane .main fun l => { l with cursors := s.root?.toList }.prime) :=
      .changeLane (l := s.main) rfl fun l => { l with cursors := s.root?.toList }.prime
    rw [hroot]
    exact .turn hid (.rooted rfl (List.isEmpty_iff.mp hempty) heffect quiet_changeLane)
  · exact .refl

theorem endBrokenLoop_course (hid : lanes id) : Course lanes s (s.endBrokenLoop id) := by
  unfold endBrokenLoop
  split
  · exact .refl
  · rename_i d hd
    obtain ⟨l, hl, hfind⟩ := Option.bind_eq_some_iff.mp hd
    have hclose := Effect.changeLane hl fun l =>
      ((l.truncate (d + 1)).changeAt d fun c => c.release.forwardEnd).prime
    have hkept : (((l.truncate (d + 1)).changeAt d fun c => c.release.forwardEnd).prime).cursors =
        (l.cursors.take (d + 1)).modify d fun c => c.release.forwardEnd := by
      simp [Lane.prime, Lane.changeAt, Lane.truncate]
    rw [hkept] at hclose
    have hlog := Effect.record (s := s.changeLane id fun l =>
      ((l.truncate (d + 1)).changeAt d fun c => c.release.forwardEnd).prime) id (.loopEnded id d)
    rw [hclose.lane] at hlog
    have hlane : s.cursors? id = some l.cursors := by rw [cursors?, hl]; rfl
    refine .turn hid (.closed hlane hfind (hclose.trans hlog) (quiet_changeLane.trans ⟨rfl, rfl, rfl⟩))

theorem finish_course (hid : lanes id) (hshort : ∀ cursors, s.cursors? id = some cursors → cursors.length ≤ 1) :
    Course lanes s (s.finish id) := by
  cases id with
  | main =>
    unfold finish
    simp only
    split
    · refine .turn hid (.ended rfl ?_ rfl rfl rfl)
      exact ⟨⟨rfl, rfl, rfl, rfl, fun h => h⟩, rfl, fun _ _ => rfl, by simp [record], Nat.le_refl _, fun h => h⟩
    · exact .refl
  | side n => exact .turn hid (.removed rfl hshort (.removeLane n) ⟨rfl, rfl, rfl⟩)

/-- The lane that has a pass, and lanes that are added meanwhile. -/
def Near (s : Session) (id other : LaneId) : Prop := other = id ∨ ∃ n, s.nextSide ≤ n ∧ other = .side n

theorem Knows.ne (h : s.Knows id) {n : Nat} (hn : s.nextSide ≤ n) (k : Nat) (hk : n ≤ k) : id ≠ .side k := by
  rintro rfl
  exact absurd (Nat.lt_of_lt_of_le h (Nat.le_trans hn hk)) (Nat.lt_irrefl k)

/-- A pass is a number of turns. -/
theorem passWithin_course (fuel : Nat) {e : Seconds} (hscript : s.hasScript)
    (hscripted : ∃ chance, s.interpreter = .scripted chance) (hnum : s.Numbered) (hknows : s.Knows id)
    (h : s.passWithin fuel id e = some t) : Course (s.Near id) s t := by
  induction fuel generalizing s id e t with
  | zero => cases h
  | succ fuel ih =>
    have hid : s.Near id id := Or.inl rfl
    have hbegin := start_course hid hscript
    rw [passWithin] at h
    generalize (if id = .main ∧ s.main.cursors.isEmpty then s.advance .main else s) = r at hbegin h
    have hclosed := hbegin.trans (endBrokenLoop_course hid)
    generalize r.endBrokenLoop id = n at hclosed h
    have hsince := hclosed.since
    have hscript' : n.hasScript := by rw [hsince.script.hasScript]; exact hscript
    split at h
    · cases h
      exact hclosed
    · rename_i l hl
      have hlane : n.cursors? id = some l.cursors := by rw [cursors?, hl]; rfl
      split at h
      · rename_i ref hnext
        split at h
        · cases h
          exact hclosed
        · rename_i a ha
          refine hclosed.trans (attempt_course hid hscript' (hsince.script.scripted hscripted) ⟨hlane, hnext, ha⟩ ?_ h)
          intro m fresh u hm hmlane hfresh hrun
          -- The pass of the lane that is added is one with less fuel, and leaves this lane alone.
          have hgiven := hsince.trans hm
          have hmnum : m.Numbered := hgiven.numbered hnum
          have hadd := Effect.addLane hmnum fresh
          have hadded : Turn (.side m.nextSide) m (m.addLane fresh) := .added rfl hfresh hadd ⟨rfl, rfl, rfl⟩
          have hscript'' : (m.addLane fresh).hasScript := by
            rw [hadd.script.hasScript, hgiven.script.hasScript]
            exact hscript
          have hpass := ih hscript'' (hadd.script.scripted (hgiven.script.scripted hscripted)) (hadd.numbered hmnum)
            (Nat.lt_succ_self _) hrun
          refine ⟨(Course.turn (Or.inr ⟨_, hgiven.nextSide, rfl⟩) hadded).trans (hpass.mono ?_), ?_⟩
          · rintro other (rfl | ⟨k, hk, rfl⟩)
            · exact Or.inr ⟨_, hgiven.nextSide, rfl⟩
            · exact Or.inr ⟨k, Nat.le_trans hgiven.nextSide (Nat.le_trans hadd.nextSide hk), rfl⟩
          · have hold := hknows.ne hgiven.nextSide
            rw [hpass.cursors?_eq, hadd.others id (hold _ (Nat.le_refl _)), hmlane]
            rintro (rfl | ⟨k, hk, rfl⟩)
            · exact hold _ (Nat.le_refl _) rfl
            · exact hold k (Nat.le_trans hadd.nextSide hk) rfl
      · rename_i hend
        split at h
        · cases h
          exact hclosed
        · rename_i hstraight
          split at h
          · cases h
            rename_i hdeep
            obtain ⟨outer, top, htop⟩ : ∃ outer top, l.cursors = outer ++ [top] := by
              rcases List.eq_nil_or_concat l.cursors with hnil | ⟨outer, top, hconcat⟩
              · simp [Lane.depth, hnil] at hdeep
              · exact ⟨outer, top, by rw [hconcat, List.concat_eq_append]⟩
            have hinner : outer ≠ [] := by
              rintro rfl
              simp [Lane.depth, htop] at hdeep
            have hover : top.action? = none := by simpa [Lane.action?, Lane.top?, htop] using hend
            have hfree : top.looping = false := by simpa [Lane.top?, htop] using hstraight
            exact hclosed.trans (Course.turn hid (.moved hlane (Or.inr ⟨outer, top, htop, hinner, hover, hfree⟩)
              (.advance hscript' hlane (by simp [htop])) (quiet_advance hscript')))
          · cases h
            rename_i hflat
            refine hclosed.trans (finish_course hid fun cursors hcursors => ?_)
            cases hlane.symm.trans hcursors
            exact Nat.le_of_not_lt hflat

/-! ### Frames -/

/-- A number of turns on whatever lanes. -/
abbrev Turns : Session → Session → Prop := Course fun _ => True

/-- What a session needs to be played by turns. -/
structure Sound (s : Session) : Prop where
  scripted : ∃ chance, s.interpreter = .scripted chance
  numbered : s.Numbered

theorem Sound.later (h : s.Sound) (hsince : Since s t) : t.Sound :=
  ⟨hsince.script.scripted h.scripted, hsince.numbered h.numbered⟩

theorem pass_turns {e : Seconds} (hs : s.Sound) (hscript : s.hasScript) (hknows : s.Knows id)
    (h : s.pass id e = some t) : Turns s t :=
  (passWithin_course s.patience hscript hs.scripted hs.numbered hknows h).mono fun _ _ => trivial

/-- What the passes of a round keep one by one, the round keeps. -/
theorem foldlM_preserves {P : Session → Prop} {ids : List LaneId} {e : Seconds}
    (hpass : ∀ id ∈ ids, ∀ r u, P r → r.pass id e = some u → P u) (hs : P s)
    (h : ids.foldlM (fun s id => s.pass id e) s = some t) : P t := by
  induction ids generalizing s with
  | nil =>
    cases h
    exact hs
  | cons id ids ih =>
    obtain ⟨u, hu, hrest⟩ := Option.bind_eq_some_iff.mp h
    have hnext : P u := hpass id List.mem_cons_self s u hs hu
    exact ih (fun other hother => hpass other (List.mem_cons_of_mem _ hother)) hnext hrest

theorem foldlM_turns {ids : List LaneId} {e : Seconds} (hs : s.Sound) (hscript : s.hasScript)
    (hids : ∀ id ∈ ids, s.Knows id) (h : ids.foldlM (fun s id => s.pass id e) s = some t) : Turns s t := by
  refine foldlM_preserves (fun id hid r u hr hu => ?_) .refl h
  have hsince : Since s r := Course.since hr
  have hscript' : r.hasScript := by rw [hsince.script.hasScript]; exact hscript
  exact Course.trans hr (pass_turns (hs.later hsince) hscript' ((hids id hid).later hsince.nextSide) hu)

theorem passes_turns {e : Seconds} (hs : s.Sound) (hscript : s.hasScript) (h : s.passes e = some t) : Turns s t := by
  obtain ⟨u, hu, hmain⟩ := Option.bind_eq_some_iff.mp h
  have hsides : (s.sides.map fun entry => LaneId.side entry.1).foldlM (fun s id => s.pass id e) s = some u := by
    rw [List.foldlM_map]
    exact hu
  have hcourse : Turns s u := by
    refine foldlM_turns hs hscript (fun id hid => ?_) hsides
    obtain ⟨⟨n, l⟩, hmem, rfl⟩ := List.mem_map.mp hid
    exact hs.numbered n l hmem
  have hsince := hcourse.since
  exact hcourse.trans (pass_turns (hs.later hsince) (by rw [hsince.script.hasScript]; exact hscript)
    (show u.Knows .main from trivial) hmain)

/-- A frame is a number of turns. -/
theorem update_turns {e : Seconds} (hs : s.Sound) (h : s.update e = some t) : Turns s t := by
  have hcamera : ∀ u : Session, Turns u { u with camera := u.camera.after e } := fun u =>
    .turn trivial (.calm (.calm .main ⟨rfl, rfl, rfl, rfl, fun h => h⟩ rfl rfl rfl rfl) ⟨rfl, rfl, rfl⟩)
  unfold update at h
  simp only at h
  split at h
  · rename_i hplays
    have hscript : s.hasScript := by
      simp only [Bool.and_eq_true] at hplays
      exact hplays.1.1
    have haged : Effect .main (s.cursors? .main) [] s
        { s.syncSlots with slots := s.syncSlots.slots.map (Speech.after · e) } :=
      .calm .main ⟨rfl, rfl, rfl, rfl, fun h => h⟩ rfl rfl rfl rfl
    obtain ⟨u, hu, ht⟩ := Option.bind_eq_some_iff.mp h
    cases ht
    have hpasses := passes_turns (hs.later haged.since) (by rw [haged.script.hasScript]; exact hscript) hu
    exact (Course.turn trivial (.calm haged ⟨rfl, rfl, rfl⟩)).trans (hpasses.trans (hcamera u))
  · cases h
    exact hcamera s

/-- What every frame keeps is kept while speech is skipped. -/
theorem skipSpeech_preserves {P : Session → Prop} {left taken count : Nat}
    (hframe : ∀ r u, P r → r.update r.options.fastForwardStep = some u → P u) (hs : P s)
    (h : s.skipSpeech left taken = some (t, count)) : P t := by
  induction left generalizing s taken with
  | zero =>
    cases h
    exact hs
  | succ left ih =>
    rw [skipSpeech] at h
    split at h
    · split at h
      · cases h
      · rename_i u hu
        exact ih (hframe s u hs hu) h
    · cases h
      exact hs

theorem skipSpeech_turns (left taken : Nat) {count : Nat} (hs : s.Sound)
    (h : s.skipSpeech left taken = some (t, count)) : Turns s t := by
  refine skipSpeech_preserves (P := Turns s) (fun r u (hr : Turns s r) hu => ?_) .refl h
  exact hr.trans (update_turns (hs.later hr.since) hu)

end Session
end Dialogue

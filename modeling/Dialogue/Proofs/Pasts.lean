import Dialogue.Proofs.Transcripts

/-! Sessions with another past. What has been logged before does not matter for what happens next, and where the source of
    random numbers stands does not matter as long as nothing is drawn. So a session with another past does the same, whatever
    is requested, and logs the same (`performs_after`). -/

namespace Dialogue

/-- What is exchanged in a session: what has been logged before, and maybe the source of random numbers. -/
structure Past where
  log : Array Event
  chance? : Option Chance

/-- The interpreter with another source of random numbers, if one is given. -/
def Interpreter.seeded (chance? : Option Chance) : Interpreter → Interpreter
  | .scripted chance => .scripted (chance?.getD chance)
  | .recording noted => .recording noted

theorem Interpreter.seeded_none {i : Interpreter} : i.seeded none = i := by cases i <;> rfl

namespace Session
variable {s t : Session} {p : Past} {id : LaneId} {e : Seconds} {l : Lane} {ref : ActionRef} {a : Action ListId}

/-- The session with another past. -/
def after (s : Session) (p : Past) : Session :=
  { s with interpreter := s.interpreter.seeded p.chance?, events := p.log ++ s.events }

/-! ### Small steps -/

theorem interpreter_after {i : Interpreter} (h : s.interpreter = i) : (s.after p).interpreter = i.seeded p.chance? := by
  rw [after, h]

theorem record_after (event : Event) : (s.after p).record event = (s.record event).after p := by
  simp only [record, after, Array.push_append]

theorem changeLane_after (f : Lane → Lane) : (s.after p).changeLane id f = (s.changeLane id f).after p := by
  cases id <;> rfl

theorem lane?_after : (s.after p).lane? id = s.lane? id := by cases id <;> rfl

theorem list_after (list : ListRef) : (s.after p).list list = s.list list := by cases list <;> rfl

theorem action?_after : (s.after p).action? ref = s.action? ref := by rw [action?, action?, list_after]

theorem cursor_after (list : ListRef) : (s.after p).cursor list = s.cursor list := by
  simp only [cursor, list_after]

theorem enter_after (cur : Cursor) : (s.after p).enter id cur = (s.enter id cur).after p := by
  rw [enter, record_after, changeLane_after]
  rfl

theorem addLane_after : (s.after p).addLane l = (s.addLane l).after p :=
  record_after (s := { s with sides := s.sides ++ [(s.nextSide, l)], nextSide := s.nextSide + 1 }) _

theorem removeLane_after (n : Nat) : (s.after p).removeLane n = (s.removeLane n).after p := by
  rw [removeLane, removeLane, ← record_after]
  rfl

theorem advance_after : (s.after p).advance id = (s.advance id).after p := by
  unfold advance
  rw [lane?_after]
  have hscript : (s.after p).hasScript = s.hasScript := rfl
  rw [hscript]
  split
  · split
    · rfl
    · split
      · exact changeLane_after _
      · simp only [changeLane_after, record_after]
        split <;> rfl
  · rfl

theorem addActor_after (actor : Actor) : (s.after p).addActor actor = (s.addActor actor).after p := rfl

theorem removeActor_after (name : String) : (s.after p).removeActor name = (s.removeActor name).after p := by
  unfold removeActor
  have hindex : (s.after p).syncSlots.world.actorIndex? name = s.syncSlots.world.actorIndex? name := rfl
  simp only [hindex]
  split
  · rfl
  · rename_i index _
    exact record_after (s := { s.syncSlots with
      world := s.syncSlots.world.removeActor name, slots := s.syncSlots.slots.eraseIdx index }) _

theorem rewind_after : (s.after p).rewind = s.rewind.after p := by
  unfold rewind
  simp only
  rw [← advance_after, ← record_after]
  rfl

theorem setTopic_after (topic : Option TopicId) : (s.after p).setTopic topic = (s.setTopic topic).after p := by
  by_cases h : s.topic = topic ∧ s.preview.isNone
  · have h' : (s.after p).topic = topic ∧ (s.after p).preview.isNone := h
    rw [setTopic, setTopic, if_pos h, if_pos h']
  · have h' : ¬((s.after p).topic = topic ∧ (s.after p).preview.isNone) := h
    rw [setTopic, setTopic, if_neg h, if_neg h']
    exact rewind_after (s := { s with topic, preview := none })

/-! ### Actions -/

/-- Whether carrying out an action draws a number at random. -/
def draws (s : Session) (a : Action ListId) : Bool :=
  match s.interpreter, a.kind with
  | .scripted _, .cue (.setVariable name change) => name ≠ "" && change.operator = .random
  | .scripted _, .cue (.setParameter actor name change) =>
    name ≠ "" && (s.world.actor? actor).isSome && change.operator = .random
  | _, _ => false

variable {chance : Chance} {start start' : Session → Lane → Option Session}

theorem apply_seeded {operator : SetOperator} (hdraws : operator = .random → p.chance? = none) (current operand : Int32) :
    operator.apply current operand (p.chance?.getD chance) =
      ((operator.apply current operand chance).1, p.chance?.getD (operator.apply current operand chance).2) := by
  cases operator with
  | random => simp [hdraws rfl]
  | set | increment | decrement => rfl

theorem setVariable_after {name : String} {change : Change}
    (hdraws : name ≠ "" → change.operator = .random → p.chance? = none) :
    (s.after p).setVariable (p.chance?.getD chance) name change = (s.setVariable chance name change).after p := by
  unfold setVariable
  split
  · rfl
  · rename_i hname
    simp only [apply_seeded (hdraws hname)]
    rfl

theorem setParameter_after {actor name : String} {change : Change}
    (hdraws : name ≠ "" → (s.world.actor? actor).isSome → change.operator = .random → p.chance? = none) :
    (s.after p).setParameter (p.chance?.getD chance) actor name change =
      (s.setParameter chance actor name change).after p := by
  have hsame : (s.after p).world = s.world := rfl
  unfold setParameter
  rw [hsame]
  split
  · rfl
  · rename_i hthere
    obtain ⟨hname, hactor⟩ := not_or.mp hthere
    rw [Option.isNone_iff_eq_none, ← ne_eq, ← Option.isSome_iff_ne_none] at hactor
    simp only [apply_seeded (hdraws hname hactor)]
    rfl

theorem announce_after (info : String) : (s.after p).announce id info = (s.announce id info).after p := by
  have hoptions : (s.after p).options = s.options := rfl
  rw [announce, announce, hoptions]
  split
  · exact advance_after
  · rfl

theorem ask_after (answers : List (Answer ListId)) (meanwhile : ListId) :
    (s.after p).ask id ref answers meanwhile = (s.ask id ref answers meanwhile).after p := by
  have hsame := ask_cases (s.after p) id ref answers meanwhile
  simp only [cursor_after, enter_after, lane?_after] at hsame
  -- The offers are the same, so either both sessions ask or neither does.
  obtain ⟨hnone, hask⟩ | ⟨k, hlane, hdepth, haction, hoffers, hask⟩ := ask_cases s id ref answers meanwhile <;>
    obtain ⟨hnone', hask'⟩ | ⟨k', hlane', hdepth', haction', hoffers', hask'⟩ := hsame
  · rw [hask, hask']
    exact advance_after (s := { s.enter id { s.cursor (.script meanwhile) with parent := some ref, looping := true } with
      choice := none })
  · exact absurd (hoffers'.trans hnone) k'.offers_ne
  · exact absurd (hoffers.trans hnone') k.offers_ne
  · obtain rfl : k' = k := by
      cases k
      cases k'
      simp_all [after]
    rw [hask, hask']
    rfl

theorem perform_after {cue : Cue} (hinterpreter : s.interpreter = .scripted chance) (hkind : a.kind = .cue cue)
    (hdraws : s.draws a → p.chance? = none)
    (hstart : ∀ topic, s.sideTopic? a = some topic →
      start' (s.after p) (s.topicLane topic (some ref)) = (start s (s.topicLane topic (some ref))).map (·.after p)) :
    (s.after p).perform start' (p.chance?.getD chance) id ref cue =
      (s.perform start chance id ref cue).map (·.after p) := by
  cases cue with
  | cameraShot name duration =>
    exact congrArg some (advance_after (s := { s with camera := .shooting name duration }))
  | speak actor text minTime words =>
    have hindex : (s.after p).world.actorIndex? actor = s.world.actorIndex? actor := rfl
    simp only [perform, hindex]
    split
    · rfl
    · rename_i slot _
      have hspeak : (s.after p).speak slot (speechLength minTime words) text =
          (s.speak slot (speechLength minTime words) text).after p := by
        unfold speak
        split <;> rfl
      rw [hspeak, advance_after]
      rfl
  | snippet file topic sideLane =>
    have hfind : (s.after p).conversation.findTopic? file topic = s.conversation.findTopic? file topic := rfl
    simp only [perform, hfind]
    cases htopic : s.conversation.findTopic? file topic with
    | none => exact congrArg some advance_after
    | some found =>
      cases sideLane with
      | true =>
        have hside : s.sideTopic? a = some found := by
          simp only [sideTopic?, Conversation.sideTopic?, hinterpreter, hkind, htopic]
        have hlane : (s.after p).topicLane found (some ref) = s.topicLane found (some ref) := rfl
        simp only [↓reduceIte, hlane, hstart found hside]
        cases start s (s.topicLane found (some ref)) with
        | none => rfl
        | some t => exact congrArg some advance_after
      | false =>
        have hcursor : (s.after p).topicCursor? found = s.topicCursor? found := rfl
        simp only [Bool.false_eq_true, ↓reduceIte, hcursor]
        split
        · rfl
        · exact congrArg some (enter_after _)
  | stopConversation => cases id <;> rfl
  | stopTopic =>
    simp only [perform, changeLane_after, advance_after, Option.map_some]
  | setVariable name change =>
    have hset : (s.after p).setVariable (p.chance?.getD chance) name change = (s.setVariable chance name change).after p :=
      setVariable_after fun hname hrandom => hdraws (by simp [draws, hinterpreter, hkind, hname, hrandom])
    simp only [perform, hset, advance_after, Option.map_some]
  | setParameter actor name change =>
    have hset : (s.after p).setParameter (p.chance?.getD chance) actor name change =
        (s.setParameter chance actor name change).after p :=
      setParameter_after fun hname hactor hrandom =>
        hdraws (by simp [draws, hinterpreter, hkind, hname, hactor, hrandom])
    simp only [perform, hset, advance_after, Option.map_some]
  | actorCommand actor command => exact congrArg some (announce_after _)
  | gameCommand command => exact congrArg some (announce_after _)
  | trigger name action => exact congrArg some (announce_after (s := { s with world := s.world.apply name action }) _)
  | addActor actor alias? =>
    have hthere : ((s.after p).world.actor? actor).isSome = (s.world.actor? actor).isSome := rfl
    simp only [perform, hthere]
    split
    · exact congrArg some (announce_after _)
    · rw [addActor_after]
      exact congrArg some (announce_after _)
  | removeActor actor =>
    rw [perform, removeActor_after]
    exact congrArg some (announce_after _)
  | comment text => exact congrArg some advance_after

/-- Carrying out an action comes to the same, if a side lane that it starts does. -/
theorem execute_after (hdraws : s.draws a → p.chance? = none)
    (hstart : ∀ topic, s.sideTopic? a = some topic →
      start' (s.after p) (s.topicLane topic (some ref)) = (start s (s.topicLane topic (some ref))).map (·.after p)) :
    (s.after p).execute start' id ref a = (s.execute start id ref a).map (·.after p) := by
  cases hinterpreter : s.interpreter with
  | recording noted =>
    have hsame : (s.after p).interpreter = .recording noted := interpreter_after hinterpreter
    simp only [execute, hinterpreter, hsame, Option.map_some]
    rw [← advance_after]
    rfl
  | scripted chance =>
    have hsame : (s.after p).interpreter = .scripted (p.chance?.getD chance) := interpreter_after hinterpreter
    simp only [execute, hinterpreter, hsame]
    cases hkind : a.kind with
    | cue cue => exact perform_after hinterpreter hkind hdraws hstart
    | ifElse cases otherwise =>
      have hworld : (s.after p).world = s.world := rfl
      have hconversation : (s.after p).conversation = s.conversation := rfl
      simp only [hworld, hconversation]
      split
      · exact congrArg some advance_after
      · exact congrArg some (enter_after _)
    | choice answers meanwhile name => exact congrArg some (ask_after _ _)
    | wait condition body =>
      cases condition with
      | none => exact congrArg some advance_after
      | some condition => exact congrArg some (enter_after _)

/-! ### Passes -/

theorem isBroken_after : (s.after p).isBroken = s.isBroken := by
  have haction : (s.after p).action? = s.action? := funext fun _ => action?_after
  funext cur
  rw [isBroken, isBroken, haction]
  rfl

theorem endBrokenLoop_after : (s.after p).endBrokenLoop id = (s.endBrokenLoop id).after p := by
  rw [endBrokenLoop, endBrokenLoop, lane?_after, isBroken_after]
  split
  · rfl
  · rw [changeLane_after, record_after]

theorem opened_after : (s.after p).opened id = (s.opened id).after p := by
  have hbegun : (s.after p).begun id = (s.begun id).after p := by
    have hmain : (s.after p).main = s.main := rfl
    rw [begun, begun, hmain]
    split
    · exact advance_after
    · rfl
  rw [opened, hbegun, endBrokenLoop_after]
  rfl

theorem finish_after : (s.after p).finish id = (s.finish id).after p := by
  cases id with
  | main =>
    have hsilent : (s.after p).allSilent = s.allSilent := rfl
    rw [finish, finish, hsilent]
    split
    · exact record_after (s := { s with running := false }) _
    · rfl
  | side n => exact removeLane_after n

theorem carrying?_after : (s.after p).carrying? id e = s.carrying? id e := by
  have hwaits : ((s.opened id).after p).mustWait = (s.opened id).mustWait := rfl
  simp only [carrying?, opened_after, lane?_after, action?_after, hwaits]

theorem carried_after : (s.after p).carried id e l ref a = (s.carried id e l ref a).after p := by
  have hnote : ∀ (r : Session) last, (r.after p).note id ref a last = (r.note id ref a last).after p := fun r last =>
    record_after (s := { r with lastPlayed := last }) _
  rw [carried, opened_after, changeLane_after, hnote]
  rfl

theorem draws_after : (s.after p).draws a = s.draws a := by
  cases hinterpreter : s.interpreter with
  | recording noted =>
    have hsame : (s.after p).interpreter = .recording noted := interpreter_after hinterpreter
    simp only [draws, hinterpreter, hsame]
  | scripted chance =>
    have hsame : (s.after p).interpreter = .scripted (p.chance?.getD chance) := interpreter_after hinterpreter
    simp only [draws, hinterpreter, hsame]
    cases a.kind with
    | cue cue => cases cue <;> rfl
    | ifElse | choice | wait => rfl

theorem sideTopic?_after : (s.after p).sideTopic? a = s.sideTopic? a := by
  rw [sideTopic?, sideTopic?, after]
  cases s.interpreter <;> rfl

theorem Alike.draws (h : Alike s t) : t.draws = s.draws := by
  funext a
  simp only [Session.draws, h.interpreter, h.world]

/-- Whether a pass draws a number at random, or one that comes within it. -/
def drawsWithin : Nat → Session → LaneId → Seconds → Bool
  | 0, _, _, _ => false
  | fuel + 1, s, id, elapsed =>
    (s.carrying? id elapsed).any fun (l, ref, a) =>
      s.draws a || (s.sideTopic? a).any fun topic =>
        drawsWithin fuel (s.started id elapsed l ref a topic) (.side s.nextSide) 0

/-- Whether a number is drawn does not depend on the past. -/
theorem drawsWithin_after (fuel : Nat) : ∀ {s : Session} {id : LaneId} {e : Seconds},
    (s.after p).drawsWithin fuel id e = s.drawsWithin fuel id e := by
  induction fuel with
  | zero => exact fun {_ _ _} => rfl
  | succ fuel ih =>
    intro s id e
    have hstarted : ∀ l ref a topic, (s.after p).started id e l ref a topic = (s.started id e l ref a topic).after p := by
      intro l ref a topic
      rw [started, carried_after, addLane_after]
      rfl
    have hnext : (s.after p).nextSide = s.nextSide := rfl
    simp only [drawsWithin, carrying?_after, draws_after, sideTopic?_after, hstarted, hnext, ih]

theorem passWithin_after (fuel : Nat) : ∀ {s : Session} {id : LaneId} {e : Seconds},
    (s.drawsWithin fuel id e → p.chance? = none) →
      (s.after p).passWithin fuel id e = (s.passWithin fuel id e).map (·.after p) := by
  induction fuel with
  | zero => exact fun _ => rfl
  | succ fuel ih =>
    intro s id e hdraws
    by_cases hcarries : ∃ l ref a, s.Carries id e l ref a
    · obtain ⟨l, ref, a, hcarries⟩ := hcarries
      have halike : Alike s (s.carried id e l ref a) := .carried
      rw [drawsWithin, carries_iff.mp hcarries, Option.any_some, Bool.or_eq_true] at hdraws
      have hcarries' : (s.after p).Carries id e l ref a := by rwa [carries_iff, carrying?_after, ← carries_iff]
      rw [passWithin_of_carries hcarries, passWithin_of_carries hcarries', carried_after,
        execute_after (fun h => hdraws (.inl (halike.draws ▸ h))) fun topic htopic => ?_, Option.map_map, Option.map_map]
      · congr 1
        exact funext fun _ => changeLane_after _
      · -- The side lane that is started has its first pass within this one.
        rw [addPlaying, addPlaying, addLane_after]
        have hside : s.sideTopic? a = some topic := halike.sideTopic? ▸ htopic
        refine ih fun h => hdraws (.inr ?_)
        rw [hside, Option.any_some, ← nextSide_carried hcarries]
        exact h
    · rw [passWithin_succ, passWithin_succ, opened_after, lane?_after]
      cases hlane : (s.opened id).lane? id with
      | none => rfl
      | some l =>
        simp only
        cases hnext : l.action? with
        | none =>
          simp only
          split
          · rfl
          · split
            · exact congrArg some advance_after
            · exact congrArg some finish_after
        | some ref =>
          simp only [action?_after]
          cases ha : (s.opened id).action? ref with
          | none => rfl
          | some a =>
            have hwaits : ((s.opened id).after p).mustWait a = (s.opened id).mustWait a := rfl
            simp only [attempt, hwaits]
            split
            · rfl
            · rename_i hgate
              split
              · exact congrArg some (changeLane_after _)
              · rename_i hdue
                exact absurd ⟨l, ref, a, hlane, hnext, ha, Bool.eq_false_iff.mpr hgate, hdue⟩ hcarries

/-- A session with another past does the same in a pass. -/
theorem pass_after (h : s.drawsWithin s.patience id e → p.chance? = none) :
    (s.after p).pass id e = (s.pass id e).map (·.after p) := passWithin_after _ h

/-! ### Frames -/

/-- Whether a number is drawn at random in a round over lanes. -/
def drawsInRound (s : Session) (e : Seconds) : List LaneId → Bool
  | [] => false
  | id :: ids => s.drawsWithin s.patience id e || (s.pass id e).any (drawsInRound · e ids)

/-- Whether a number is drawn at random in a frame. -/
def drawsInUpdate (s : Session) (e : Seconds) : Bool := s.Plays && (s.aged e).drawsInRound e s.order

theorem drawsInRound_after {ids : List LaneId} : (s.after p).drawsInRound e ids = s.drawsInRound e ids := by
  induction ids generalizing s with
  | nil => rfl
  | cons id ids ih =>
    have hpatience : (s.after p).patience = s.patience := rfl
    rw [drawsInRound, drawsInRound, hpatience, drawsWithin_after]
    cases hdraws : s.drawsWithin s.patience id e with
    | true => rfl
    | false =>
      rw [pass_after (by simp [hdraws])]
      cases s.pass id e with
      | none => rfl
      | some t => exact ih

theorem round_after {ids : List LaneId} (h : s.drawsInRound e ids → p.chance? = none) :
    ids.foldlM (fun (s : Session) id => s.pass id e) (s.after p) =
      (ids.foldlM (fun (s : Session) id => s.pass id e) s).map (·.after p) := by
  induction ids generalizing s with
  | nil => rfl
  | cons id ids ih =>
    rw [drawsInRound, Bool.or_eq_true] at h
    rw [List.foldlM_cons, List.foldlM_cons, pass_after fun hdraws => h (.inl hdraws)]
    cases hpass : s.pass id e with
    | none => rfl
    | some t => exact ih fun hdraws => h (.inr (by rwa [hpass, Option.any_some]))

theorem drawsInUpdate_after : (s.after p).drawsInUpdate e = s.drawsInUpdate e :=
  congrArg (s.Plays && ·) (drawsInRound_after (s := s.aged e))

theorem update_after (h : s.drawsInUpdate e → p.chance? = none) :
    (s.after p).update e = (s.update e).map (·.after p) := by
  have hplays : (s.after p).Plays ↔ s.Plays := Iff.rfl
  have haged : (s.after p).aged e = (s.aged e).after p := rfl
  have horder : ((s.aged e).after p).order = s.order := rfl
  rw [update_eq, update_eq, Option.map_map]
  by_cases hs : s.Plays
  · have hround : (s.aged e).drawsInRound e s.order → p.chance? = none := fun hdraws =>
      h (by simp [drawsInUpdate, hs, hdraws])
    rw [if_pos hs, if_pos (hplays.mpr hs), passes_eq, passes_eq, haged, horder, round_after hround, Option.map_map]
    rfl
  · rw [if_neg hs, if_neg (mt hplays.mp hs)]
    rfl

/-- Whether a number is drawn at random while what is being said is skipped. -/
def drawsInSkip (s : Session) : Nat → Bool
  | 0 => false
  | left + 1 =>
    s.running && !s.paused && !s.allSilent &&
      (s.drawsInUpdate s.options.fastForwardStep || (s.update s.options.fastForwardStep).any (drawsInSkip · left))

theorem drawsInSkip_after {left : Nat} : (s.after p).drawsInSkip left = s.drawsInSkip left := by
  induction left generalizing s with
  | zero => rfl
  | succ left ih =>
    have hoptions : (s.after p).options = s.options := rfl
    refine congrArg (s.running && !s.paused && !s.allSilent && ·) ?_
    rw [hoptions, drawsInUpdate_after]
    cases hdraws : s.drawsInUpdate s.options.fastForwardStep with
    | true => rfl
    | false =>
      rw [update_after (by simp [hdraws])]
      cases s.update s.options.fastForwardStep with
      | none => rfl
      | some t => exact ih

theorem skipSpeech_after {left taken : Nat} (h : s.drawsInSkip left → p.chance? = none) :
    (s.after p).skipSpeech left taken = (s.skipSpeech left taken).map fun x => (x.1.after p, x.2) := by
  induction left generalizing s taken with
  | zero => rfl
  | succ left ih =>
    have hgoes : ((s.after p).running && !(s.after p).paused && !(s.after p).allSilent) =
      (s.running && !s.paused && !s.allSilent) := rfl
    have hoptions : (s.after p).options = s.options := rfl
    rw [skipSpeech, skipSpeech, hgoes, hoptions]
    rw [drawsInSkip, Bool.and_eq_true, Bool.or_eq_true] at h
    split
    · rename_i hs
      rw [update_after fun hdraws => h ⟨hs, .inl hdraws⟩]
      cases hupdate : s.update s.options.fastForwardStep with
      | none => rfl
      | some t => exact ih fun hdraws => h ⟨hs, .inr (by rwa [hupdate, Option.any_some])⟩
    · rfl

/-! ### Operations -/

theorem unwind_after {depth : Nat} : (s.after p).unwind id depth = (s.unwind id depth).map (·.after p) := by
  unfold unwind
  rw [lane?_after]
  split
  · rfl
  · split
    · rw [changeLane_after, record_after]
      rfl
    · rfl

theorem answer_after (k : Choice) (o : Offer) : (s.after p).answer k o = (s.answer k o).after p := by
  have hnoted : ((s.after p).changeLane k.lane (Lane.changeAt (k.depth - 1) Cursor.forwardEnd)).record
      (.selected o.option) = ((s.changeLane k.lane (Lane.changeAt (k.depth - 1) Cursor.forwardEnd)).record
        (.selected o.option)).after p := by
    rw [changeLane_after, record_after]
  unfold answer
  simp only
  rw [hnoted]
  generalize (s.changeLane k.lane (Lane.changeAt (k.depth - 1) Cursor.forwardEnd)).record (.selected o.option) = r
  rw [action?_after]
  split
  · rename_i answers _ variableName _
    have hgo : ∀ (q : Session) (list : ListId),
        (if (q.conversation.list list).isEmpty then q.after p
          else (q.after p).enter k.lane { (q.after p).cursor (.script list) with parent := some k.action }) =
        (if (q.conversation.list list).isEmpty then q
          else q.enter k.lane { q.cursor (.script list) with parent := some k.action }).after p := fun q list => by
      rw [cursor_after, enter_after]
      exact (apply_ite (Session.after · p) _ _ _).symm
    cases variableName.filter (· ≠ "") with
    | none =>
      cases answers[o.option]? with
      | none => rfl
      | some answer => exact hgo r answer.actions
    | some name =>
      cases answers[o.option]? with
      | none => rfl
      | some answer => exact hgo { r with world := r.world.setVariable name (saturate o.option) } answer.actions
  · rfl

theorem select_after (index : Nat) :
    (s.after p).select index = ((s.select index).1.after p, (s.select index).2) := by
  have hchoice : (s.after p).choice = s.choice := rfl
  unfold select
  rw [hchoice]
  cases s.choice with
  | none => rfl
  | some k =>
    simp only
    cases k.offers[index]? with
    | none => rfl
    | some o =>
      have hdone : ({ s.after p with choice := none } : Session) = ({ s with choice := none } : Session).after p := rfl
      simp only [hdone, unwind_after]
      cases ({ s with choice := none } : Session).unwind k.lane (k.depth - 1) with
      | none => rfl
      | some t => exact congrArg (·, true) (answer_after k o)

/-- The session when an action is about to be tried out on its own. -/
def trying (s : Session) (a : Action ListId) : Session :=
  { { s with preview := some a }.rewind with running := true, paused := false }

theorem trying_after : (s.after p).trying a = (s.trying a).after p := by
  have hpreview : ({ s.after p with preview := some a } : Session) = ({ s with preview := some a } : Session).after p := rfl
  rw [trying, trying, hpreview, rewind_after]
  rfl

theorem playSingle_after {seconds : Seconds} (h : 0 < seconds → (s.trying a).drawsInUpdate seconds → p.chance? = none) :
    (s.after p).playSingle a seconds = (s.playSingle a seconds).map (·.after p) := by
  have hplay : ∀ r : Session, r.playSingle a seconds =
    if 0 < seconds then (r.trying a).update seconds else some (r.trying a) := fun _ => rfl
  rw [hplay, hplay, trying_after]
  split
  · exact update_after (h ‹_›)
  · rfl

theorem addSide_after (h : (s.addLane l).drawsWithin s.patience (.side s.nextSide) 0 → p.chance? = none) :
    (s.after p).addSide l = (s.addSide l).map (·.after p) := by
  have hnext : (s.after p).nextSide = s.nextSide := rfl
  rw [addSide, addSide, addPlaying, addPlaying, addLane_after, hnext]
  exact pass_after h

/-! ### Requests -/

/-- Whether a number is drawn at random while a request is carried out. -/
def drawsFor (s : Session) : Request → Bool
  | .op (.update e) => s.drawsInUpdate e
  | .op .fastForward => s.drawsInSkip s.options.fastForwardLimit
  | .op (.playSingle a seconds) => 0 < seconds && (s.trying a).drawsInUpdate seconds
  | .op (.addSide l) => (s.addLane l).drawsWithin s.patience (.side s.nextSide) 0
  | _ => false

/-- Whether a number is drawn at random while some requests are carried out. -/
def drawsAlong (s : Session) : List Request → Bool
  | [] => false
  | request :: requests => s.drawsFor request || (s.respond request).any (drawsAlong · requests)

/-- What is exchanged once a request has been carried out. The host may have taken what has been logged before. -/
def Request.through (p : Past) : Request → Past
  | .op .takeEvents => { p with log := #[] }
  | _ => p

theorem respond_after {request : Request} (h : s.drawsFor request → p.chance? = none) :
    (s.after p).respond request = (s.respond request).map (·.after (request.through p)) := by
  cases request with
  | edit world => rfl
  | op op =>
    cases op with
    | setRunning | setPaused | setAutoAdvance | speech | addActor | world | takeInfo => rfl
    | setTopic topic => exact congrArg some (setTopic_after topic)
    | rewind => exact congrArg some rewind_after
    | advance =>
      have hadvance : (s.after p).advance .main = (s.advance .main).after p := advance_after
      exact congrArg some hadvance
    | removeActor name => exact congrArg some (removeActor_after name)
    | takeEvents => rfl
    | update e =>
      simp only [respond, step, update_after h]
      cases s.update e <;> rfl
    | fastForward =>
      have hskip : (s.after p).fastForward = s.fastForward.map fun x => (x.1.after p, x.2) := skipSpeech_after h
      simp only [respond, step, hskip]
      cases s.fastForward <;> rfl
    | playSingle a seconds =>
      have hplay : (s.after p).playSingle a seconds = (s.playSingle a seconds).map (·.after p) :=
        playSingle_after fun hseconds hdraws => h (by simp [drawsFor, hseconds, hdraws])
      simp only [respond, step, hplay]
      cases s.playSingle a seconds <;> rfl
    | addSide l =>
      simp only [respond, step, addSide_after h]
      cases s.addSide l <;> rfl
    | cancelLoop depth =>
      refine congrArg some ?_
      simp only [cancelLoop, unwind_after]
      cases s.unwind .main depth <;> rfl
    | select index => exact congrArg (some ·.1) (select_after index)

theorem drawsFor_after {request : Request} : (s.after p).drawsFor request = s.drawsFor request := by
  cases request with
  | edit world => rfl
  | op op =>
    cases op with
    | update e => exact drawsInUpdate_after
    | fastForward => exact drawsInSkip_after
    | playSingle a seconds =>
      rw [drawsFor, drawsFor, trying_after, drawsInUpdate_after]
    | addSide l =>
      rw [drawsFor, drawsFor, addLane_after, drawsWithin_after]
      rfl
    | _ => rfl

theorem drawsAlong_after {requests : List Request} : (s.after p).drawsAlong requests = s.drawsAlong requests := by
  induction requests generalizing s p with
  | nil => rfl
  | cons request requests ih =>
    rw [drawsAlong, drawsAlong, drawsFor_after]
    cases hdraws : s.drawsFor request with
    | true => rfl
    | false =>
      rw [respond_after (by simp [hdraws])]
      cases s.respond request with
      | none => rfl
      | some t => exact ih

theorem logged_after {request : Request} (h : s.respond request = some t) :
    (s.after p).logged (t.after (request.through p)) = s.logged t := by
  by_cases htakes : request = .op .takeEvents
  · subst htakes
    cases h
    simp [logged, after, Request.through]
  · have hthrough : request.through p = p := by
      unfold Request.through
      split
      · exact absurd rfl htakes
      · rfl
    rw [hthrough, logged, logged, after, after, Array.toList_append, Array.size_append, ← Array.length_toList,
      List.drop_append, List.drop_of_length_le (Nat.le_add_right _ _), Nat.add_sub_cancel_left, List.nil_append]

/-- A session with another past does the same, whatever is requested, and logs the same meanwhile. -/
theorem performs_after (s : Session) (p : Past) {requests : List Request} (h : s.drawsAlong requests → p.chance? = none) :
    ∃ q : Past, q.chance? = p.chance? ∧
      (s.after p).performs requests = (s.performs requests).map fun x => (x.1.after q, x.2) := by
  induction requests generalizing s p with
  | nil => exact ⟨p, rfl, rfl⟩
  | cons request requests ih =>
    rw [drawsAlong, Bool.or_eq_true] at h
    have hrespond := respond_after fun hdraws => h (.inl hdraws)
    have hsame : (request.through p).chance? = p.chance? := by
      unfold Request.through
      split <;> rfl
    cases ht : s.respond request with
    | none => exact ⟨p, rfl, by simp [performs, hrespond, ht]⟩
    | some t =>
      have hrest : t.drawsAlong requests → p.chance? = none := fun hdraws => h (.inr (by rwa [ht, Option.any_some]))
      obtain ⟨q, hq, hperforms⟩ := ih t (request.through p) fun hdraws => hsame.trans (hrest hdraws)
      refine ⟨q, hq.trans hsame, ?_⟩
      rw [performs, performs, hrespond, ht]
      simp only [Option.map_some, Option.bind_eq_bind, Option.bind_some, hperforms, logged_after ht]
      cases t.performs requests <;> rfl

end Session
end Dialogue

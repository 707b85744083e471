import Dialogue.Proofs.Growth
import Dialogue.Proofs.Passes

/-! What carrying out an action does, whichever interpreter does it. One that starts a side lane adds the lane and goes
    on (`execute_of_sideTopic`), and any other one touches no lane but its own (`execute_touches`). -/

namespace Dialogue

/-- The topic of the side lane that an action calls for. -/
def Conversation.sideTopic? (c : Conversation) (a : Action ListId) : Option TopicId :=
  match a.kind with
  | .cue (.snippet file topic true) => c.findTopic? file topic
  | _ => none

namespace Session
variable {s t : Session} {id : LaneId} {l : Lane} {ref : ActionRef} {a : Action ListId}
variable {start : Session → Lane → Option Session}

/-- The topic of the side lane that an action starts. -/
def sideTopic? (s : Session) (a : Action ListId) : Option TopicId :=
  match s.interpreter with
  | .scripted _ => s.conversation.sideTopic? a
  | .recording _ => none

theorem sideTopic?_eq_some {t : TopicId} (h : s.sideTopic? a = some t) :
    ∃ chance file topic, s.interpreter = .scripted chance ∧ a.kind = .cue (.snippet file topic true) ∧
      s.conversation.findTopic? file topic = some t := by
  unfold sideTopic? at h
  split at h
  · rename_i chance hinterpreter
    unfold Conversation.sideTopic? at h
    split at h
    · rename_i file topic hkind
      exact ⟨chance, file, topic, hinterpreter, hkind, h⟩
    · cases h
  · cases h

theorem sideTopic?_eq_none (h : ∀ file topic, a.kind ≠ .cue (.snippet file topic true)) : s.sideTopic? a = none := by
  refine Option.eq_none_iff_forall_ne_some.mpr fun t ht => ?_
  obtain ⟨_, file, topic, -, hkind, -⟩ := sideTopic?_eq_some ht
  exact h file topic hkind

theorem getElem?_of_mem_offered {w : World} {answers : List (Answer ListId)} {o : Offer} (h : o ∈ offered w answers) :
    answers[o.option]?.map (·.text) = some o.text := by
  obtain ⟨⟨answer, i⟩, hmem, rfl⟩ := List.mem_map.mp h
  have hthere : answers[i]? = some answer := List.mem_zipIdx_iff_getElem?.mp (List.mem_filter.mp hmem).1
  simp only [hthere, Option.map_some]

/-- A new lane is started at the topic, and its own lane goes on. -/
theorem execute_of_sideTopic {t : TopicId} (h : s.sideTopic? a = some t) :
    s.execute start id ref a = (start s (s.topicLane t (some ref))).map (·.advance id) := by
  obtain ⟨chance, file, topic, hinterpreter, hkind, hfind⟩ := sideTopic?_eq_some h
  simp only [execute, hinterpreter, hkind, perform, hfind, ↓reduceIte]
  cases start s (s.topicLane t (some ref)) <;> rfl

namespace Touches

theorem of_stage (h : Stage s t) : Touches id s t :=
  stage h.script.lists h.main h.sides h.nextSide h.events (fun _ hk => .inl (h.quiet.choice ▸ hk)) h.played
    fun hs => h.quiet.running.trans hs

theorem goOn (h : Touches id s t) : Touches id s (t.advance id) := h.trans .advance

theorem announce (info : String) : Touches id s (s.announce id info) := by
  unfold Session.announce
  split
  · exact .advance
  · exact .stage ⟨rfl, rfl, rfl⟩ rfl rfl rfl rfl (fun _ => .inl) rfl fun h => h

theorem removeActor (name : String) : Touches id s (s.removeActor name) := by
  have hsync : Touches id s s.syncSlots := .stage ⟨rfl, rfl, rfl⟩ rfl rfl rfl rfl (fun _ => .inl) rfl fun h => h
  unfold Session.removeActor
  simp only
  split
  · exact hsync
  · refine Touches.trans (hsync.trans ?_) (.record rfl nofun nofun)
    exact .stage ⟨rfl, rfl, rfl⟩ rfl rfl rfl rfl (fun _ => .inl) rfl fun h => h

theorem addActor (actor : Actor) : Touches id s (s.addActor actor) :=
  .stage ⟨rfl, rfl, rfl⟩ rfl rfl rfl rfl (fun _ => .inl) rfl fun h => h

theorem entering {cur : Cursor} (hlane : s.lane? id = some l) (hnext : l.action? = some ref)
    (ha : s.action? ref = some a) (hcur : s.Enters ref a.kind cur) : Touches id s (s.enter id cur) := by
  refine .enter fun k hk => ?_
  obtain rfl : l = k := Option.some.inj (hlane.symm.trans hk)
  exact .entered hnext ha hcur

theorem ask {answers : List (Answer ListId)} {meanwhile : ListId} {name : Option String} (hlane : s.lane? id = some l)
    (hnext : l.action? = some ref) (ha : s.action? ref = some a) (hkind : a.kind = .choice answers meanwhile name) :
    Touches id s (s.ask id ref answers meanwhile) := by
  have henter : Touches id s (s.enter id { s.cursor (.script meanwhile) with parent := some ref, looping := true }) :=
    entering hlane hnext ha (hkind ▸ .meanwhile answers meanwhile name)
  rcases ask_cases s id ref answers meanwhile with ⟨-, hnone⟩ | ⟨k, -, -, rfl, hoffers, hsome⟩
  · rw [hnone]
    refine goOn (henter.trans ?_)
    exact .stage ⟨rfl, rfl, rfl⟩ rfl rfl rfl rfl nofun rfl fun h => h
  · rw [hsome]
    refine henter.trans (.stage ⟨rfl, rfl, rfl⟩ rfl rfl rfl rfl (fun k' hk' => .inr ?_) rfl fun h => h)
    obtain rfl : k = k' := Option.some.inj hk'
    refine henter.lists.poses ⟨a, answers, meanwhile, name, ha, hkind, fun o ho => ?_⟩
    exact getElem?_of_mem_offered (hoffers ▸ ho)

end Touches

theorem perform_touches {cue : Cue} {chance : Chance} (hinterpreter : s.interpreter = .scripted chance)
    (hside : s.sideTopic? a = none) (hlane : s.lane? id = some l) (hnext : l.action? = some ref)
    (ha : s.action? ref = some a) (hkind : a.kind = .cue cue) :
    ∃ t, (∀ start, s.perform start chance id ref cue = some t) ∧ Touches id s t := by
  cases cue with
  | cameraShot name duration =>
    exact ⟨_, fun _ => rfl, .goOn (.stage ⟨rfl, rfl, rfl⟩ rfl rfl rfl rfl (fun _ => .inl) rfl fun h => h)⟩
  | speak actor text minTime words =>
    cases hactor : s.world.actorIndex? actor with
    | none =>
      refine ⟨_, fun _ => by simp only [perform, hactor]; rfl, ?_⟩
      exact .stage ⟨rfl, rfl, rfl⟩ rfl rfl rfl rfl (fun _ => .inl) rfl fun _ => rfl
    | some slot =>
      exact ⟨_, fun _ => by simp only [perform, hactor]; rfl, .goOn (.of_stage (stage_speak _ _ _))⟩
  | snippet file topic sideLane =>
    cases hfind : s.conversation.findTopic? file topic with
    | none => exact ⟨_, fun _ => by simp only [perform, hfind], .advance⟩
    | some found =>
      cases sideLane with
      | true =>
        have hsome : s.sideTopic? a = some found := by
          simp only [sideTopic?, Conversation.sideTopic?, hinterpreter, hkind, hfind]
        cases hsome.symm.trans hside
      | false =>
        cases hcur : s.topicCursor? found with
        | none => exact ⟨s, fun _ => by simp [perform, hfind, hcur], .refl id s⟩
        | some cur =>
          refine ⟨_, fun _ => by simp only [perform, hfind, hcur, Bool.false_eq_true, ↓reduceIte]; rfl, ?_⟩
          exact .entering hlane hnext ha (hkind ▸ .topic hfind hcur)
  | stopConversation =>
    refine ⟨_, fun _ => rfl, ?_⟩
    exact (Touches.change fun l _ => .stopped l).trans
      (.stage ⟨rfl, rfl, rfl⟩ rfl rfl rfl rfl (fun _ => .inl) rfl fun h => h)
  | stopTopic => exact ⟨_, fun _ => rfl, (Touches.change fun l _ => .topicStopped l).goOn⟩
  | setVariable name change => exact ⟨_, fun _ => rfl, .goOn (.of_stage (stage_setVariable _ _ _))⟩
  | setParameter actor name change => exact ⟨_, fun _ => rfl, .goOn (.of_stage (stage_setParameter _ _ _ _))⟩
  | actorCommand actor command => exact ⟨_, fun _ => rfl, .announce _⟩
  | gameCommand command => exact ⟨_, fun _ => rfl, .announce _⟩
  | trigger name action => exact ⟨_, fun _ => rfl, (Touches.of_stage (stage_world _)).trans (.announce _)⟩
  | addActor actor alias? =>
    refine ⟨_, fun _ => rfl, Touches.trans ?_ (.announce _)⟩
    split
    · exact .refl id s
    · exact .addActor _
  | removeActor actor => exact ⟨_, fun _ => rfl, (Touches.removeActor actor).trans (.announce _)⟩
  | comment text => exact ⟨_, fun _ => rfl, .advance⟩

/-- An action that starts no side lane is done at once, and concerns its own lane only. -/
theorem execute_touches (hside : s.sideTopic? a = none) (hlane : s.lane? id = some l) (hnext : l.action? = some ref)
    (ha : s.action? ref = some a) : ∃ t, (∀ start, s.execute start id ref a = some t) ∧ Touches id s t := by
  cases hinterpreter : s.interpreter with
  | recording noted =>
    refine ⟨_, fun _ => by simp only [execute, hinterpreter]; rfl, .goOn ?_⟩
    exact .stage ⟨rfl, rfl, rfl⟩ rfl rfl rfl rfl (fun _ => .inl) rfl fun h => h
  | scripted chance =>
    cases hkind : a.kind with
    | cue cue =>
      simp only [execute, hinterpreter, hkind]
      exact perform_touches hinterpreter hside hlane hnext ha hkind
    | ifElse cases otherwise =>
      simp only [execute, hinterpreter, hkind]
      split
      · exact ⟨_, fun _ => rfl, .advance⟩
      · refine ⟨_, fun _ => rfl, .entering hlane hnext ha (hkind ▸ .branch _ ?_)⟩
        -- The branch that is taken is that of a case, or the other one.
        simp only [Kind.lists, List.mem_append, List.mem_map, List.mem_singleton]
        cases hcase : cases.find? fun c => c.condition.any (·.holds s.world) with
        | none => exact .inr rfl
        | some c => exact .inl ⟨c, List.mem_of_find?_eq_some hcase, rfl⟩
    | choice answers meanwhile name =>
      simp only [execute, hinterpreter, hkind]
      exact ⟨_, fun _ => rfl, .ask hlane hnext ha hkind⟩
    | wait condition body =>
      cases condition with
      | none =>
        simp only [execute, hinterpreter, hkind]
        exact ⟨_, fun _ => rfl, .advance⟩
      | some condition =>
        simp only [execute, hinterpreter, hkind]
        exact ⟨_, fun _ => rfl, .entering hlane hnext ha (hkind ▸ .body condition body)⟩

end Session
end Dialogue

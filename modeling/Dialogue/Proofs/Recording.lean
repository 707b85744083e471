import Dialogue.Proofs.Transcripts

/-! Recording. A session that only notes its actions notes the list of its topic from the first action on, one after the
    other and each of them once, whatever time passes and whatever else is done to the session meanwhile; and playback
    ends only when all of them have been noted (`recorded_in_order`). -/

namespace Dialogue

/-- The actions of a list in their order, with their labels. -/
def Conversation.listing (c : Conversation) (list : ListId) : List (ActionRef × String) :=
  (c.list list).mapIdx fun i a => (⟨.script list, i⟩, a.label)

/-- A cursor that has been set to a topic, at some place of its list. -/
def Conversation.place (c : Conversation) (t : TopicId) (list : ListId) (next : Nat) : Cursor :=
  { topic := some t, list := .script list, length := (c.list list).length, next }

theorem Lane.advance_singleton (cur : Cursor) (waiting : Bool) (time : Seconds) :
    (Lane.mk [cur] waiting time).advance.1.cursors = [cur.advance] ∧
      (Lane.mk [cur] waiting time).advance.2 = false := by
  cases hnext : cur.advance.action? with
  | none =>
    rw [Lane.advance_root hnext]
    exact ⟨rfl, rfl⟩
  | some ref =>
    have hgoes : (Lane.mk ([] ++ [cur]) waiting time).advance = (⟨[] ++ [cur.advance], true, 0⟩, false) :=
      Lane.advance_of_some (by rw [hnext, Option.isSome_some])
    exact ⟨congrArg (·.1.cursors) hgoes, congrArg (·.2) hgoes⟩

namespace Session
variable {c : Conversation} {t : TopicId} {list : ListId} {s u v : Session} {e : Seconds}

/-- What has been noted, from the first action on. -/
def recorded (s : Session) : List (ActionRef × String) :=
  match s.interpreter with
  | .recording noted => noted.reverse
  | .scripted _ => []

theorem recorded_eq {noted : List (ActionRef × String)} (h : s.interpreter = .recording noted) :
    s.recorded = noted.reverse := by rw [recorded, h]

/-- A request that neither chooses what is played nor moves a lane on. -/
def Request.Attends : Request → Prop
  | .op (.setTopic _) | .op .rewind | .op .advance | .op (.select _) | .op (.playSingle _ _) | .op (.addSide _) => False
  | _ => True

instance : DecidablePred Request.Attends := fun request => by
  unfold Request.Attends
  split <;> infer_instance

/-! ### What is kept -/

/-- A session that plays the list of a topic on its main lane alone, and has noted the actions before the next one. -/
structure Recites (s : Session) (c : Conversation) (t : TopicId) (list : ListId) : Prop where
  conversation : s.conversation = c
  topic : s.topic = some t
  sides : s.sides = []
  place : ∃ next, next ≤ (c.list list).length ∧ s.main.cursors = [c.place t list next] ∧
    s.interpreter = .recording ((c.listing list).take next).reverse

/-- The main lane goes on within its only list. -/
theorem advance_single {cur : Cursor} (hscript : s.hasScript) (hmain : s.main.cursors = [cur]) :
    ∃ l, s.advance .main = { s with main := l } ∧ l.cursors = [cur.advance] := by
  obtain ⟨hkept, hleft⟩ := Lane.advance_singleton cur s.main.waiting s.main.time
  rw [← hmain] at hkept hleft
  refine ⟨s.main.advance.1, ?_, hkept⟩
  have hstays : s.main.advance.2 = false := hleft
  simp [Session.advance, hscript, lane?, hmain, hstays, changeLane]

namespace Recites

theorem same (h : s.Recites c t list) (hconversation : u.conversation = s.conversation) (htopic : u.topic = s.topic)
    (hsides : u.sides = s.sides) (hmain : u.main.cursors = s.main.cursors) (hinterpreter : u.interpreter = s.interpreter) :
    u.Recites c t list where
  conversation := hconversation.trans h.conversation
  topic := htopic.trans h.topic
  sides := hsides.trans h.sides
  place := by
    rw [hmain, hinterpreter]
    exact h.place

theorem hasScript (h : s.Recites c t list) : s.hasScript := by simp [Session.hasScript, h.topic]

theorem recorded_prefix (h : s.Recites c t list) : s.recorded <+: c.listing list := by
  obtain ⟨next, -, -, hnoted⟩ := h.place
  rw [recorded_eq hnoted, List.reverse_reverse]
  exact List.take_prefix next _

/-- Nothing starts and no loop is broken when a pass begins. -/
theorem opened (h : s.Recites c t list) : s.opened .main = s := by
  obtain ⟨next, -, hmain, -⟩ := h.place
  have hbegun : s.begun .main = s := by simp [begun, hmain]
  rw [Session.opened, hbegun]
  refine endBrokenLoop_of_none (l := s.main) rfl ?_
  simp [hmain, isBroken, Conversation.place]

/-- A pass that carries out an action notes it and goes on. -/
theorem carries (h : s.Recites c t list) {l : Lane} {ref : ActionRef} {a : Action ListId}
    (hcarries : s.Carries .main e l ref a) :
    ∃ u, s.pass .main e = some u ∧ u.Recites c t list ∧ u.options = s.options ∧
      u.recorded = s.recorded ++ [(ref, a.label)] ∧
      u.events.toList = s.events.toList ++ [.dispatched .main ref a.label] := by
  obtain ⟨next, -, hmain, hnoted⟩ := h.place
  obtain rfl : s.main = l := by
    have hlane := hcarries.lane
    rw [h.opened] at hlane
    exact Option.some.inj hlane
  have hplace : (c.place t list next).action? = some ref := by
    rw [← hcarries.next, Lane.action?, Lane.top?, hmain]
    rfl
  obtain ⟨hless, href⟩ := Cursor.action?_eq_some_iff.mp hplace
  have ha : (c.list list)[next]? = some a := by
    have haction := hcarries.action
    rwa [h.opened, href, action?, Conversation.place, Session.list.eq_def, h.conversation] at haction
  have htaken : (c.listing list).take (next + 1) = (c.listing list).take next ++ [(ref, a.label)] := by
    have hentry : (c.listing list)[next]? = some (ref, a.label) := by
      rw [Conversation.listing, List.getElem?_mapIdx, ha, href]
      rfl
    rw [List.take_add_one, hentry]
    rfl
  let r : Session := { s.carried .main e s.main ref a with
    interpreter := .recording ((ref, a.label) :: ((c.listing list).take next).reverse) }
  have hr : r = { s with
      main := { s.main with waiting := false, time := s.main.time + e }
      lastPlayed := some { topic := s.main.topic?, action := ref }
      interpreter := .recording ((c.listing list).take (next + 1)).reverse
      events := s.events.push (.dispatched .main ref a.label) } := by
    simp only [r, carried, h.opened, htaken, List.reverse_concat]
    rfl
  obtain ⟨l, hgoes, hl⟩ := advance_single (s := r) (by rw [hr]; exact h.hasScript) (by rw [hr]; exact hmain)
  have hadvance : (c.place t list next).advance = c.place t list (next + 1) := by
    have hmin : min (next + 1) (c.list list).length = next + 1 := Nat.min_eq_left hless
    simp [Conversation.place, Cursor.advance, hmin]
    rfl
  have hpass : s.pass .main e = some { r with main := l.prime } := by
    rw [pass_of_recording hcarries hnoted, hgoes]
    rfl
  refine ⟨_, hpass, ⟨?_, ?_, ?_, next + 1, hless, hl.trans (hadvance ▸ rfl), ?_⟩, ?_, ?_, ?_⟩ <;> simp only [hr]
  · exact h.conversation
  · exact h.topic
  · exact h.sides
  · rw [recorded_eq hnoted, recorded_eq rfl, htaken, List.reverse_reverse, List.reverse_reverse]
  · exact Array.toList_push

/-- A pass stays at its place, or it notes the next action and goes on, or it ends playback since there is none. -/
theorem pass (h : s.Recites c t list) (e : Seconds) :
    ∃ u, s.pass .main e = some u ∧ u.Recites c t list ∧ u.options = s.options ∧ s.recorded <+: u.recorded ∧
      u.recorded.length ≤ s.recorded.length + 1 ∧
      ∃ log, u.events.toList = s.events.toList ++ log ∧ (.ended ∈ log → s.recorded = c.listing list) := by
  obtain ⟨next, hnext, hmain, hnoted⟩ := h.place
  have hlane : (s.opened .main).lane? .main = some s.main := by rw [h.opened]; rfl
  have hplace : s.main.action? = (c.place t list next).action? := by simp [Lane.action?, Lane.top?, hmain]
  by_cases hcarries : ∃ l ref a, s.Carries .main e l ref a
  · obtain ⟨l, ref, a, hcarries⟩ := hcarries
    obtain ⟨u, hpass, hrecites, hoptions, hrecorded, hlog⟩ := h.carries hcarries
    refine ⟨u, hpass, hrecites, hoptions, ?_, ?_, [.dispatched .main ref a.label], hlog, by simp⟩
    · rw [hrecorded]
      exact List.prefix_append _ _
    · exact Nat.le_of_eq (by rw [hrecorded, List.length_append, List.length_singleton])
  · obtain ⟨u, hpass, hidles⟩ := passWithin_of_idle (e := e) fun l ref a hcarried => hcarries ⟨l, ref, a, hcarried⟩
    refine ⟨u, hpass _, ?_⟩
    cases hidles with
    | still =>
      rw [h.opened]
      exact ⟨h, rfl, List.prefix_rfl, Nat.le_succ _, [], by simp, by simp⟩
    | timed =>
      rw [h.opened]
      exact ⟨h.same rfl rfl rfl rfl rfl, rfl, List.prefix_rfl, Nat.le_succ _, [], by simp [changeLane], by simp⟩
    | leaves hl _ hdeep =>
      obtain rfl := Option.some.inj (hlane.symm.trans hl)
      simp [Lane.depth, hmain] at hdeep
    | finishes hl hend =>
      obtain rfl := Option.some.inj (hlane.symm.trans hl)
      rw [hplace, Cursor.action?_eq_none_iff] at hend
      have hall : s.recorded = c.listing list := by
        rw [recorded_eq hnoted, List.reverse_reverse, List.take_of_length_le]
        simpa [Conversation.listing, Conversation.place] using hend
      rw [h.opened, finish]
      split
      · exact ⟨h.same rfl rfl rfl rfl rfl, rfl, List.prefix_rfl, Nat.le_succ _, [.ended], by simp [record], fun _ => hall⟩
      · exact ⟨h, rfl, List.prefix_rfl, Nat.le_succ _, [], by simp, by simp⟩

/-- An update adds one action at most, and ends playback only when all of them have been noted before. -/
theorem update (h : s.Recites c t list) (e : Seconds) :
    ∃ u, s.update e = some u ∧ u.Recites c t list ∧ u.options = s.options ∧ s.recorded <+: u.recorded ∧
      u.recorded.length ≤ s.recorded.length + 1 ∧ (.ended ∈ s.logged u → s.recorded = c.listing list) := by
  rw [update_eq]
  split
  · have haged : (s.aged e).Recites c t list := h.same rfl rfl rfl rfl rfl
    obtain ⟨u, hpass, hrecites, hoptions, hgrown, hlength, log, hlog, hended⟩ := haged.pass e
    have hpasses : (s.aged e).passes e = some u := by
      have horder : (s.aged e).order = [.main] := by rw [order, numbers, haged.sides]; rfl
      rw [passes_eq, horder, List.foldlM_cons, hpass]
      rfl
    have hlogged : s.logged { u with camera := u.camera.after e } = log := logged_eq hlog
    exact ⟨{ u with camera := u.camera.after e }, by rw [hpasses]; rfl, hrecites.same rfl rfl rfl rfl rfl, hoptions,
      hgrown, hlength, hlogged ▸ hended⟩
  · have hlogged : s.logged { s with camera := s.camera.after e } = [] := logged_of_events rfl
    have hnothing : .ended ∉ s.logged { s with camera := s.camera.after e } := by
      rw [hlogged]
      exact List.not_mem_nil
    exact ⟨_, rfl, h.same rfl rfl rfl rfl rfl, rfl, List.prefix_rfl, Nat.le_succ _, fun hmem => absurd hmem hnothing⟩

end Recites

/-! ### Requests -/

/-- More of the same list has been noted, and all of it if playback has ended meanwhile. -/
structure Continues (s : Session) (c : Conversation) (t : TopicId) (list : ListId) (log : List Event) (u : Session) :
    Prop where
  recites : u.Recites c t list
  grown : s.recorded <+: u.recorded
  ended : .ended ∈ log → u.recorded = c.listing list

namespace Continues
variable {log log' : List Event}

theorem refl (h : s.Recites c t list) : s.Continues c t list [] s :=
  ⟨h, List.prefix_rfl, fun hmem => absurd hmem List.not_mem_nil⟩

theorem trans (h : s.Continues c t list log u) (h' : u.Continues c t list log' v) :
    s.Continues c t list (log ++ log') v where
  recites := h'.recites
  grown := h.grown.trans h'.grown
  ended hmem := by
    rcases List.mem_append.mp hmem with hbefore | hafter
    · have hall : c.listing list <+: v.recorded := h.ended hbefore ▸ h'.grown
      exact h'.recites.recorded_prefix.eq_of_length_le hall.length_le
    · exact h'.ended hafter

/-- Nothing is noted, and playback does not end. -/
theorem idle (log : List Event) (h : u.Recites c t list) (hinterpreter : u.interpreter = s.interpreter)
    (hlog : u.events.toList = s.events.toList ++ log) (hended : .ended ∉ log) : s.Continues c t list (s.logged u) u where
  recites := h
  grown := by
    have hsame : u.recorded = s.recorded := by rw [recorded, recorded, hinterpreter]
    exact hsame ▸ List.prefix_rfl
  ended hmem := by
    rw [logged_eq hlog] at hmem
    exact absurd hmem hended

/-- Nothing is noted, and nothing is logged. -/
theorem calm (h : u.Recites c t list) (hinterpreter : u.interpreter = s.interpreter) (hlog : u.events = s.events) :
    s.Continues c t list (s.logged u) u :=
  idle [] h hinterpreter (by rw [hlog, List.append_nil]) List.not_mem_nil

end Continues

namespace Recites

theorem continues_update (h : s.Recites c t list) (e : Seconds) :
    ∃ u, s.update e = some u ∧ s.Continues c t list (s.logged u) u ∧ u.options = s.options := by
  obtain ⟨u, hu, hrecites, hoptions, hgrown, -, hended⟩ := h.update e
  refine ⟨u, hu, ⟨hrecites, hgrown, fun hmem => ?_⟩, hoptions⟩
  have hall : c.listing list <+: u.recorded := hended hmem ▸ hgrown
  exact hrecites.recorded_prefix.eq_of_length_le hall.length_le

theorem skipSpeech (h : s.Recites c t list) (left taken : Nat) :
    ∃ u n log, s.skipSpeech left taken = some (u, taken + n) ∧
      s.performs (List.replicate n (.op (.update s.options.fastForwardStep))) = some (u, log) ∧
      s.Continues c t list log u ∧ u.events.toList = s.events.toList ++ log := by
  induction left generalizing s taken with
  | zero => exact ⟨s, 0, [], rfl, rfl, .refl h, by simp⟩
  | succ left ih =>
    obtain ⟨u, hu, hcontinues, hoptions⟩ := h.continues_update s.options.fastForwardStep
    rw [Session.skipSpeech]
    split
    · obtain ⟨v, n, log, hv, hperforms, hrest, hlog⟩ := ih hcontinues.recites (taken + 1)
      have hfirst : s.respond (.op (.update s.options.fastForwardStep)) = some u := by simp [respond, step, hu]
      have hevents := events_respond (by simp) hfirst
      refine ⟨v, n + 1, s.logged u ++ log, ?_, ?_, hcontinues.trans hrest, ?_⟩
      · simp only [hu, hv]
        rw [Nat.add_assoc, Nat.add_comm 1]
      · rw [List.replicate_succ]
        exact performs_cons_eq_some_iff.mpr ⟨u, log, hfirst, hoptions ▸ hperforms, rfl⟩
      · rw [hlog, hevents, List.append_assoc]
    · exact ⟨s, 0, [], rfl, rfl, .refl h, by simp⟩

/-- The only list does not loop and is not left. -/
theorem cancelLoop (h : s.Recites c t list) (depth : Nat) :
    s.Continues c t list (s.logged (s.cancelLoop depth)) (s.cancelLoop depth) := by
  obtain ⟨next, hnext, hmain, hnoted⟩ := h.place
  have hdepth : s.main.depth = 1 := by rw [Lane.depth, hmain]; rfl
  unfold Session.cancelLoop unwind lane?
  simp only [hdepth]
  cases depth with
  | zero =>
    have hkept : (((s.main.truncate 1).changeAt 0 Cursor.release).prime).cursors = s.main.cursors := by
      simp [Lane.prime, Lane.changeAt, Lane.truncate, hmain, Cursor.release, Conversation.place]
    exact .idle [.loopCancelled .main 0] (h.same rfl rfl rfl hkept rfl) rfl (by simp [record, changeLane]) (by simp)
  | succ depth => exact .calm h rfl rfl

theorem removeActor (h : s.Recites c t list) (name : String) :
    s.Continues c t list (s.logged (s.removeActor name)) (s.removeActor name) := by
  unfold Session.removeActor
  simp only
  split
  · exact .calm (h.same rfl rfl rfl rfl rfl) rfl rfl
  · exact .idle [.actorRemoved name] (h.same rfl rfl rfl rfl rfl) rfl (by simp [record, syncSlots]) (by simp)

theorem respond (h : s.Recites c t list) {request : Request} (hrequest : request.Attends) :
    ∃ u, s.respond request = some u ∧ s.Continues c t list (s.logged u) u := by
  cases request with
  | edit world => exact ⟨_, rfl, .calm (h.same rfl rfl rfl rfl rfl) rfl rfl⟩
  | op op =>
    cases op with
    | setRunning | setPaused | setAutoAdvance | addActor | speech | world | takeInfo =>
      exact ⟨_, rfl, .calm (h.same rfl rfl rfl rfl rfl) rfl rfl⟩
    | takeEvents => exact ⟨_, rfl, h.same rfl rfl rfl rfl rfl, List.prefix_rfl, by simp [logged]⟩
    | update e =>
      obtain ⟨u, hu, hcontinues, -⟩ := h.continues_update e
      exact ⟨u, by simp [Session.respond, step, hu], hcontinues⟩
    | fastForward =>
      obtain ⟨u, n, log, hu, -, hcontinues, hlog⟩ := h.skipSpeech s.options.fastForwardLimit 0
      exact ⟨u, by simp [Session.respond, step, fastForward, hu], (logged_eq hlog).symm ▸ hcontinues⟩
    | cancelLoop depth => exact ⟨_, rfl, h.cancelLoop depth⟩
    | removeActor name => exact ⟨_, rfl, h.removeActor name⟩
    | setTopic | rewind | advance | select | playSingle | addSide => cases hrequest

theorem performs (h : s.Recites c t list) {requests : List Request} (hrequests : ∀ r ∈ requests, r.Attends) :
    ∃ u log, s.performs requests = some (u, log) ∧ s.Continues c t list log u := by
  induction requests generalizing s with
  | nil => exact ⟨s, [], rfl, .refl h⟩
  | cons request requests ih =>
    obtain ⟨hfirst, hrest⟩ := List.forall_mem_cons.mp hrequests
    obtain ⟨u, hu, hcontinues⟩ := h.respond hfirst
    obtain ⟨v, log, hv, hrest⟩ := ih hcontinues.recites hrest
    exact ⟨v, _, performs_cons_eq_some_iff.mpr ⟨u, log, hu, hv, rfl⟩, hcontinues.trans hrest⟩

end Recites

/-- Nothing has been noted when a topic is set for the first time. -/
theorem recites_setTopic {topic : Topic} (ht : c.topic? t = some topic) (options : Options) :
    ((start c (.recording []) options).setTopic (some t)).Recites c t topic.root := by
  have hset : (start c (.recording []) options).setTopic (some t) =
      ({ start c (.recording []) options with topic := some t } : Session).rewind := rfl
  rw [hset]
  obtain ⟨hbegins, hlists⟩ := begins_rewind ({ start c (.recording []) options with topic := some t } : Session)
  refine ⟨hlists.conversation, hlists.topic, hbegins.sides, 0, Nat.zero_le _, ?_, ?_⟩
  · have hroot : ({ start c (.recording []) options with topic := some t } : Session).root? =
        some (c.place t topic.root 0) := by
      simp [root?, topicCursor?, start, ht, cursor, Session.list, Conversation.place]
    rw [hbegins.main, hlists.root?, hroot]
    rfl
  · exact Alike.advance.interpreter

/-- Whatever time passes, and whatever a host does otherwise than choosing what is played and moving lanes on: a session
    that only notes its actions notes the list of its topic, without leaving out or repeating anything. Every update adds
    one action at most, and skipping speech is a number of updates. Playback has ended only if the whole list has been
    noted, which is so before the update that ends it. -/
theorem recorded_in_order {topic : Topic} (ht : c.topic? t = some topic) (options : Options) {requests : List Request}
    (hrequests : ∀ r ∈ requests, r.Attends) :
    ∃ s log, (start c (.recording []) options).performs (.op (.setTopic (some t)) :: requests) = some (s, log) ∧
      s.recorded <+: c.listing topic.root ∧
      (.ended ∈ log → s.recorded = c.listing topic.root) ∧
      (∀ e, ∃ u, s.update e = some u ∧ s.recorded <+: u.recorded ∧ u.recorded.length ≤ s.recorded.length + 1 ∧
        (.ended ∈ s.logged u → s.recorded = c.listing topic.root)) ∧
      ∃ u count log, s.fastForward = some (u, count) ∧
        s.performs (List.replicate count (.op (.update s.options.fastForwardStep))) = some (u, log) := by
  have hset := recites_setTopic ht options
  obtain ⟨s, log, hs, hcontinues⟩ := hset.performs hrequests
  have hfirst : Event.ended ∉ (start c (.recording []) options).logged
      ((start c (.recording []) options).setTopic (some t)) := by
    have hlog : ((start c (.recording []) options).setTopic (some t)).events.toList = [] ++ [.rewound] :=
      events_rewind (s := { start c (.recording []) options with topic := some t })
    rw [logged_eq hlog]
    simp
  refine ⟨s, _, performs_cons_eq_some_iff.mpr ⟨_, log, rfl, hs, rfl⟩, hcontinues.recites.recorded_prefix, fun hmem => ?_,
    fun e => ?_, ?_⟩
  · exact hcontinues.ended ((List.mem_append.mp hmem).resolve_left hfirst)
  · obtain ⟨u, hu, -, -, hgrown, hlength, hended⟩ := hcontinues.recites.update e
    exact ⟨u, hu, hgrown, hlength, hended⟩
  · obtain ⟨u, n, log, hu, hperforms, -⟩ := hcontinues.recites.skipSpeech s.options.fastForwardLimit 0
    exact ⟨u, n, log, by rw [fastForward, hu, Nat.zero_add], hperforms⟩

end Session

/-- A line, and two remarks of which the first one comes late. -/
def Document.boardwalk : Document where
  profiles := [{ id := "ann", alias? := none, parameters := .empty, commands := .empty }]
  values := .empty
  gameCommands := .empty
  files := [{
    id := "tale"
    topics := [
      { id := "boardwalk"
        block := ⟨[
          { kind := .cue (.speak "ann" (some "ahoy") 2 []) }, { delay := 1, kind := .cue (.comment "waves") },
          { kind := .cue (.comment "gull") }]⟩ }] }]

/-- Time stands still, goes backwards and runs away, while actors come and go and speak. -/
def Session.strolling : List Session.Request := [
  .op (.setRunning true), .op (.update (0 / 0)), .op (.speech 0 .reset), .op (.update 1), .op .takeEvents,
  .op (.world (.setWaiting "ann" true)), .op (.update (1 / 0)), .op .fastForward, .op (.setPaused true), .op (.update 1),
  .op (.setPaused false), .op (.cancelLoop 0), .op (.removeActor "ann"), .op (.update 1), .op (.update (-1)),
  .op (.update 1), .op (.update 1)]

/-- All three actions have been noted, and then playback has ended. -/
theorem recorded_in_order_boardwalk :
    ∃ c topic s log, Document.boardwalk.load = .ok c ∧ c.topic? ⟨0⟩ = some topic ∧
      (∀ r ∈ Session.strolling, r.Attends) ∧
      (Session.start c (.recording []) {}).performs (.op (.setTopic (some ⟨0⟩)) :: Session.strolling) = some (s, log) ∧
      .ended ∈ log ∧ s.recorded = c.listing topic.root ∧ s.recorded.length = 3 := by
  have hplayed : ∃ c, Document.boardwalk.load = .ok c ∧ (c.topic? ⟨0⟩).any fun topic =>
      ((Session.start c (.recording []) {}).performs (.op (.setTopic (some ⟨0⟩)) :: Session.strolling)).any fun p =>
        decide (.ended ∈ p.2) && decide (p.1.recorded.length = 3) :=
    ⟨_, rfl, by decide +kernel⟩
  obtain ⟨c, hc, hplayed⟩ := hplayed
  obtain ⟨topic, htopic, hplayed⟩ := (Option.any_eq_true _ _).mp hplayed
  obtain ⟨⟨s, log⟩, hs, hplayed⟩ := (Option.any_eq_true _ _).mp hplayed
  simp only [Bool.and_eq_true, decide_eq_true_eq] at hplayed
  have hattends : ∀ r ∈ Session.strolling, r.Attends := by decide
  obtain ⟨s', log', hs', -, hall, -⟩ := Session.recorded_in_order htopic {} hattends
  obtain ⟨rfl, rfl⟩ := Prod.mk.inj (Option.some.inj (hs'.symm.trans hs))
  exact ⟨c, topic, s', log', hc, htopic, hattends, hs, hplayed.1, hall hplayed.1, hplayed.2⟩

end Dialogue

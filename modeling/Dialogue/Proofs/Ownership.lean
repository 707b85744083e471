import Dialogue.Proofs.Numbering
import Dialogue.Proofs.Returns

/-! Which topic an action is played for. A list is written in one place of one topic (`Writes.unique`), and a lane only
    enters lists from the actions that hold them. So the topic that a lane has entered last is the one that its innermost
    list is written in, and whatever is carried out is noted with the topic that it is written in (`dispatches_credited`). -/

namespace Dialogue
variable {d : Document} {c : Conversation} {t t' : TopicId} {b b' : Block} {l m : ListId}

/-! ### Where lists are written -/

namespace Conversation

theorem nodup_references (h : d.load = .ok c) : c.references.Nodup :=
  (references_perm h).nodup_iff.mpr (List.nodup_range.map fun _ _ heq => (ListId.mk.injEq _ _).mp heq)

/-- A list that is held by another one is in the arena. -/
theorem held_mem_lists (hm : m ∈ held (c.list l)) : ∃ h : l.index < c.lists.toList.length,
    m ∈ held c.lists.toList[l.index] := by
  rw [list] at hm
  cases hlist : c.lists[l.index]? with
  | none => simp [hlist] at hm
  | some actions =>
    obtain ⟨hlt, rfl⟩ := Array.getElem?_eq_some_iff.mp hlist
    exact ⟨hlt, by simpa [hlist] using hm⟩

/-- A list is held by one other list. -/
theorem holder_unique {l' : ListId} (h : d.load = .ok c) (hm : m ∈ held (c.list l)) (hm' : m ∈ held (c.list l')) :
    l = l' := by
  obtain ⟨hlt, hmem⟩ := held_mem_lists hm
  obtain ⟨hlt', hmem'⟩ := held_mem_lists hm'
  have hdisjoint := (List.nodup_flatMap.mp (List.nodup_append.mp (nodup_references h)).2.1).2
  rw [List.pairwise_iff_getElem] at hdisjoint
  rcases Nat.lt_trichotomy l.index l'.index with hless | heq | hmore
  · exact absurd hmem' (hdisjoint _ _ hlt hlt' hless hmem)
  · exact congrArg ListId.mk heq
  · exact absurd hmem (hdisjoint _ _ hlt' hlt hmore hmem')

/-- No list holds the list that a topic starts with. -/
theorem not_held_of_root {topic : Topic} (h : d.load = .ok c) (htopic : c.topic? t = some topic) :
    topic.root ∉ held (c.list l) := by
  intro hm
  obtain ⟨hlt, hmem⟩ := held_mem_lists hm
  have hroot : topic.root ∈ c.topics.map (·.root) := List.mem_map_of_mem (List.mem_of_getElem? htopic)
  exact (List.nodup_append.mp (nodup_references h)).2.2 _ hroot _
    (List.mem_flatMap_of_mem (List.getElem_mem hlt) hmem) rfl

/-- Topics start with different lists. -/
theorem topic_of_root {topic topic' : Topic} (h : d.load = .ok c) (htopic : c.topic? t = some topic)
    (htopic' : c.topic? t' = some topic') (hroot : topic.root = topic'.root) : t = t' := by
  have hroots := (List.nodup_append.mp (nodup_references h)).1
  have hlt := (List.getElem?_eq_some_iff.mp htopic).1
  refine congrArg TopicId.mk ((List.getElem?_inj (by simpa using hlt) hroots).mp ?_)
  have hthere : c.topics[t.index]? = some topic := htopic
  have hthere' : c.topics[t'.index]? = some topic' := htopic'
  rw [List.getElem?_map, List.getElem?_map, hthere, hthere', Option.map_some, Option.map_some, hroot]

/-- The blocks within the block that a list stands for are those that the lists within the list stand for. -/
theorem held_block (h : d.load = .ok c) (l : ListId) : held (c.block l).actions = (held (c.list l)).map c.block := by
  have hblock : c.block l = ⟨(c.list l).map (Action.mapLists c.block)⟩ := Arena.block_eq fun _ => index_lt_of_held h
  rw [hblock, held_mapLists]

end Conversation

/-- The block is written somewhere within a topic of a document, and the list stands in its place when the document is
    played. -/
inductive Document.Writes (d : Document) (c : Conversation) (t : TopicId) : Block → ListId → Prop where
  | root {file : String} {written : Topic} {played : Dialogue.Topic}
      (hwritten : d.topics[t.index]? = some (file, written)) (hplayed : c.topic? t = some played) :
      Writes d c t written.block played.root
  | inner {b b' : Block} {l l' : ListId} {i : Nat} (h : Writes d c t b l) (hwritten : (held b.actions)[i]? = some b')
      (hplayed : (held (c.list l))[i]? = some l') : Writes d c t b' l'

namespace Document.Writes

theorem block (hload : d.load = .ok c) (h : d.Writes c t b l) : c.block l = b := by
  induction h with
  | @root file written played hwritten hplayed =>
    have htopics := congrArg (·[t.index]?) (blocks_of_load hload)
    simp only [List.getElem?_map] at htopics
    rw [hwritten, show c.topics[t.index]? = some played from hplayed] at htopics
    simp only [Option.map_some, Option.some.injEq, Prod.mk.injEq] at htopics
    exact htopics.2.2
  | @inner b b' l l' i _ hwritten hplayed ih =>
    rw [← ih, Conversation.held_block hload, List.getElem?_map, hplayed] at hwritten
    exact Option.some.inj hwritten

/-- The list that a topic starts with is written in it. -/
theorem of_topic {topic : Dialogue.Topic} (hload : d.load = .ok c) (htopic : c.topic? t = some topic) :
    ∃ b, d.Writes c t b topic.root := by
  have hlength : c.topics.length = d.topics.length := by
    simpa using congrArg List.length (blocks_of_load hload)
  have hlt := (List.getElem?_eq_some_iff.mp htopic).1
  exact ⟨_, .root (List.getElem?_eq_getElem (hlength ▸ hlt)) htopic⟩

/-- A list that is held by one which is written in a topic is written in it too. -/
theorem within (hload : d.load = .ok c) (h : d.Writes c t b l) (hm : m ∈ held (c.list l)) :
    ∃ b', d.Writes c t b' m := by
  obtain ⟨i, hi⟩ := List.getElem?_of_mem hm
  refine ⟨c.block m, h.inner ?_ hi⟩
  rw [← h.block hload, Conversation.held_block hload, List.getElem?_map, hi]
  rfl

/-- A list is written in one topic. -/
theorem unique (hload : d.load = .ok c) (h : d.Writes c t b l) (h' : d.Writes c t' b' l) : t' = t := by
  induction h generalizing b' with
  | root _ hplayed =>
    generalize hl : Dialogue.Topic.root _ = l at h'
    cases h' with
    | root _ hplayed' => exact Conversation.topic_of_root hload hplayed' hplayed hl.symm
    | inner _ _ hheld =>
      exact absurd (List.mem_of_getElem? hheld) (hl ▸ Conversation.not_held_of_root hload hplayed)
  | inner _ _ hheld ih =>
    cases h' with
    | root _ hplayed' =>
      exact absurd (List.mem_of_getElem? hheld) (Conversation.not_held_of_root hload hplayed')
    | inner h' _ hheld' =>
      obtain rfl := Conversation.holder_unique hload (List.mem_of_getElem? hheld') (List.mem_of_getElem? hheld)
      exact ih h'

end Document.Writes

/-- What has been carried out is noted with the one topic that its list is written in. -/
def Document.Credits (d : Document) (c : Conversation) (last : LastPlayed) : Prop :=
  ∃ t b l, last.topic = some t ∧ last.action.list = .script l ∧ d.Writes c t b l ∧
    ∀ t' b', d.Writes c t' b' l → t' = t

/-! ### Lanes -/

namespace Session
variable {s r u : Session} {id : LaneId} {lane lane' : Lane} {cur cur' : Cursor} {ref : ActionRef} {a : Action ListId}
variable {request : Request} {e : Seconds}

/-- A cursor is in the list of a topic that has been entered with it, or in a list that the action which has entered it
    holds. -/
inductive Places (s : Session) (cur : Cursor) : Prop where
  | topic {t : TopicId} {topic : Topic} (h : s.conversation.topic? t = some topic) (htopic : cur.topic = some t)
      (hlist : cur.list = .script topic.root)
  | inner {ref : ActionRef} {a : Action ListId} {list : ListId} (hparent : cur.parent = some ref)
      (ha : s.action? ref = some a) (hholds : list ∈ a.kind.lists) (htopic : cur.topic = none)
      (hlist : cur.list = .script list)

theorem Places.shifts (h : s.Places cur) (hshifts : cur.Shifts cur') : s.Places cur' := by
  cases h with
  | topic h htopic hlist => exact .topic h (hshifts.topic.trans htopic) (hshifts.list.trans hlist)
  | inner hparent ha hholds htopic hlist =>
    exact .inner (hshifts.parent.trans hparent) ha hholds (hshifts.topic.trans htopic) (hshifts.list.trans hlist)

theorem SameLists.places (h : SameLists s u) (hcur : s.Places cur) : u.Places cur := by
  cases hcur with
  | topic htopic hentered hlist => exact .topic (h.conversation ▸ htopic) hentered hlist
  | inner hparent ha => exact .inner hparent (h.action? ▸ ha) ‹_› ‹_› ‹_›

theorem places_topicCursor (h : s.topicCursor? t = some cur) (parent : Option ActionRef) :
    s.Places { cur with parent } ∧ cur.topic = some t := by
  obtain ⟨topic, htopic, rfl⟩ := Option.map_eq_some_iff.mp h
  exact ⟨.topic htopic rfl rfl, rfl⟩

theorem Enters.places (h : s.Enters ref a.kind cur) (ha : s.action? ref = some a) : s.Places cur := by
  generalize hkind : a.kind = kind at h
  cases h with
  | topic _ hcur => exact (places_topicCursor hcur _).1
  | branch list hlist => exact .inner rfl ha (hkind ▸ hlist) rfl rfl
  | meanwhile answers list name => exact .inner rfl ha (hkind ▸ List.mem_append_right _ List.mem_cons_self) rfl rfl
  | body condition list => exact .inner rfl ha (hkind ▸ List.mem_cons_self) rfl rfl

/-- Every list of a lane has been entered from the one below it, and the outermost one by a topic. -/
structure Roams (s : Session) (lane : Lane) : Prop where
  linked : lane.Linked
  places : ∀ cur ∈ lane.cursors, s.Places cur
  outermost : ∀ cur, lane.cursors[0]? = some cur → cur.topic.isSome

namespace Roams

theorem of_sameLists (h : s.Roams lane) (hlists : SameLists s u) : u.Roams lane :=
  ⟨h.linked, fun cur hcur => hlists.places (h.places cur hcur), h.outermost⟩

theorem of_topicCursor? (parent : Option ActionRef) (hcur : s.topicCursor? t = some cur)
    (hcursors : lane.cursors = [{ cur with parent }]) : s.Roams lane where
  linked := Lane.linked_of_length_le_one (by simp [hcursors])
  places cur' hcur' := by
    obtain rfl := List.mem_singleton.mp (hcursors ▸ hcur')
    exact (places_topicCursor hcur _).1
  outermost cur' hcur' := by
    obtain rfl : { cur with parent } = cur' := by simpa [hcursors] using hcur'
    exact Option.isSome_of_eq_some (places_topicCursor hcur none).2

theorem of_nil (hcursors : lane.cursors = []) : s.Roams lane :=
  ⟨Lane.linked_of_length_le_one (by simp [hcursors]), by simp [hcursors], by simp [hcursors]⟩

theorem topicLane (t : TopicId) (parent : Option ActionRef) : s.Roams (s.topicLane t parent) := by
  cases hcur : s.topicCursor? t with
  | none => exact of_nil (by simp [Session.topicLane, hcur])
  | some cur => exact of_topicCursor? parent hcur (by simp [Session.topicLane, hcur])

theorem of_root (hpreview : s.preview = none) (hcursors : lane.cursors = s.root?.toList) : s.Roams lane := by
  cases hroot : s.root? with
  | none => exact of_nil (by rw [hcursors, hroot]; rfl)
  | some cur =>
    have hcur : s.topic.bind s.topicCursor? = some cur := by simpa [root?, hpreview] using hroot
    obtain ⟨t, -, hcur⟩ := Option.bind_eq_some_iff.mp hcur
    have hparent : { cur with parent := none } = cur := by
      obtain ⟨topic, -, rfl⟩ := Option.map_eq_some_iff.mp hcur
      rfl
    exact of_topicCursor? none hcur (by rw [hcursors, hroot, hparent]; rfl)

theorem forms (h : s.Roams lane) (hpreview : s.preview = none) (hforms : s.Forms lane lane') : s.Roams lane' := by
  have hlinked := hforms.linked h.linked
  cases hforms with
  | kept n f _ hshifts hcursors =>
    refine ⟨hlinked, fun cur' hcur' => ?_, fun cur' hcur' => ?_⟩
    · obtain ⟨i, hi⟩ := List.getElem?_of_mem (hcursors ▸ hcur')
      obtain ⟨cur, hcur, hshifts⟩ := Cursor.exists_shifts hshifts hi
      exact (h.places cur (List.mem_of_getElem? hcur)).shifts hshifts
    · obtain ⟨cur, hcur, hshifts⟩ := Cursor.exists_shifts hshifts (hcursors ▸ hcur')
      exact hshifts.topic ▸ h.outermost cur hcur
  | rooted _ hcursors => exact of_root hpreview hcursors
  | @entered ref a cur hnext ha hcur hcursors =>
    refine ⟨hlinked, fun cur' hcur' => ?_, fun cur' hcur' => ?_⟩
    · rcases List.mem_append.mp (hcursors ▸ hcur') with hold | hnew
      · exact h.places cur' hold
      · exact List.mem_singleton.mp hnew ▸ hcur.places ha
    · rw [hcursors, List.getElem?_append_left (List.length_pos_iff.mpr (ne_nil_of_action? hnext))] at hcur'
      exact h.outermost cur' hcur'

/-- Of the lists of a lane up to some place, the topic that has been entered last is the one that the list at this place
    is written in. -/
theorem writes (hload : d.load = .ok s.conversation) (h : s.Roams lane) {i : Nat} (hcur : lane.cursors[i]? = some cur) :
    ∃ t b l, (lane.cursors.take (i + 1)).reverse.findSome? (·.topic) = some t ∧ cur.list = .script l ∧
      d.Writes s.conversation t b l := by
  induction i generalizing cur with
  | zero =>
    cases h.places cur (List.mem_of_getElem? hcur) with
    | topic htopic hentered hlist =>
      obtain ⟨b, hb⟩ := Document.Writes.of_topic hload htopic
      exact ⟨_, b, _, by simp [List.take_add_one, hcur, hentered], hlist, hb⟩
    | inner _ _ _ hnone =>
      have := h.outermost cur hcur
      simp [hnone] at this
  | succ i ih =>
    have hlatest : (lane.cursors.take (i + 1 + 1)).reverse.findSome? (·.topic) =
        cur.topic.or ((lane.cursors.take (i + 1)).reverse.findSome? (·.topic)) := by
      rw [List.take_add_one, hcur, List.reverse_append]
      cases htopic : cur.topic <;> simp [htopic]
    cases h.places cur (List.mem_of_getElem? hcur) with
    | topic htopic hentered hlist =>
      obtain ⟨b, hb⟩ := Document.Writes.of_topic hload htopic
      exact ⟨_, b, _, by rw [hlatest, hentered, Option.some_or], hlist, hb⟩
    | @inner ref a list hparent ha hholds hnone hlist =>
      -- The action that has entered the list is next in the list below.
      have hlt := (List.getElem?_eq_some_iff.mp hcur).1
      have hbelow : lane.cursors[i]? = some lane.cursors[i] := List.getElem?_eq_getElem (Nat.lt_of_succ_lt hlt)
      obtain ⟨ref', hparent', hnext⟩ := h.linked i _ cur hbelow hcur
      obtain rfl : ref = ref' := Option.some.inj (hparent.symm.trans hparent')
      obtain ⟨t, b, l, htopic, hscript, hb⟩ := ih hbelow
      obtain ⟨-, rfl⟩ := Cursor.action?_eq_some_iff.mp hnext
      have hmem : a ∈ s.conversation.list l := by
        rw [Session.action?, hscript] at ha
        exact List.mem_of_getElem? ha
      obtain ⟨b', hb'⟩ := hb.within hload (mem_held.mpr ⟨a, hmem, hholds⟩)
      exact ⟨t, b', list, by rw [hlatest, hnone, Option.none_or, htopic], hlist, hb'⟩

/-- What is next on a lane is written in the topic that has been entered last. -/
theorem credits (hload : d.load = .ok s.conversation) (h : s.Roams lane) (hnext : lane.action? = some ref) :
    d.Credits s.conversation { topic := lane.topic?, action := ref } := by
  obtain ⟨cur, htop, hcur⟩ := Option.bind_eq_some_iff.mp hnext
  rw [Lane.top?, List.getLast?_eq_getElem?] at htop
  obtain ⟨t, b, l, htopic, hlist, hb⟩ := h.writes hload htop
  have hlt := (List.getElem?_eq_some_iff.mp htop).1
  rw [List.take_of_length_le (by omega)] at htopic
  obtain ⟨-, rfl⟩ := Cursor.action?_eq_some_iff.mp hcur
  exact ⟨t, b, l, htopic, hlist, hb, fun t' b' hb' => hb.unique hload hb'⟩

end Roams

/-! ### Sessions -/

/-- The session plays the conversation that a document is, and not an action on its own. Lanes enter lists from the
    actions that hold them, and what has been carried out last is credited to the topic that it is written in. -/
structure Credited (d : Document) (c : Conversation) (s : Session) : Prop where
  conversation : s.conversation = c
  preview : s.preview = none
  lanes : ∀ id lane, s.lane? id = some lane → s.Roams lane
  played : ∀ last, s.lastPlayed = some last → d.Credits c last

namespace Credited

theorem beat (hload : d.load = .ok c) (hs : s.Credited d c) (h : Beat s u) : u.Credited d c where
  conversation := h.lists.conversation.trans hs.conversation
  preview := h.lists.preview.trans hs.preview
  lanes id lane' hl' := by
    rcases h.lane hl' with ⟨lane, hl, hchange⟩ | ⟨t, parent, rfl⟩
    · refine Roams.of_sameLists ?_ h.lists
      cases hchange with
      | refl => exact hs.lanes id _ hl
      | single hchange => exact (hs.lanes id lane hl).forms hs.preview hchange.forms
    · exact (Roams.topicLane t parent).of_sameLists h.lists
  played last hlast := by
    rcases h.played with hsame | ⟨id, lane, ref, hl, hnext, hnoted⟩
    · exact hs.played last (hsame ▸ hlast)
    · obtain rfl := Option.some.inj (hnoted.symm.trans hlast)
      have hcredits := (hs.lanes id lane hl).credits (hs.conversation ▸ hload) hnext
      exact hs.conversation ▸ hcredits

theorem beats (hload : d.load = .ok c) (hs : s.Credited d c) (h : Beats s u) : u.Credited d c := by
  induction h with
  | refl => exact hs
  | tail _ hbeat ih => exact ih.beat hload hbeat

theorem begins (hbegins : s.Begins) (hconversation : s.conversation = c) (hpreview : s.preview = none) :
    s.Credited d c where
  conversation := hconversation
  preview := hpreview
  lanes id lane hl := by
    cases id with
    | main =>
      obtain rfl := Option.some.inj hl
      exact .of_root hpreview (by rw [hbegins.main])
    | side n =>
      rw [lane?, hbegins.sides] at hl
      cases hl
  played last hlast := by
    rw [hbegins.played] at hlast
    cases hlast

end Credited

/-- Something that a host wants while it has a topic played: no choice is answered and no action is tried out on its own,
    and the side lanes that are added start at topics. -/
structure Follows (s : Session) (request : Request) : Prop extends Leads s request where
  single : ∀ a seconds, request ≠ .op (.playSingle a seconds)

theorem Opening.credited (h : s.Opening request r) (hs : s.Credited d c) (hfollows : s.Follows request) :
    r.Credited d c := by
  cases h with
  | same h => exact h ▸ hs
  | @rewound q hconversation _ hpreview h =>
    subst h
    obtain ⟨hbegins, hlists⟩ := begins_rewind q
    refine .begins hbegins (hlists.conversation.trans (hconversation.trans hs.conversation)) (hlists.preview.trans ?_)
    rcases hpreview with hsame | hnone | ⟨a, seconds, hsingle⟩
    · exact hsame.trans hs.preview
    · exact hnone
    · exact absurd hsingle (hfollows.single a seconds)

theorem Amid.credited (h : s.Amid request r) (hload : d.load = .ok c) (hs : s.Credited d c)
    (hfollows : s.Follows request) : r.Credited d c :=
  h.keeps (fun hopening => hopening.credited hs hfollows) (fun hs hbeat => hs.beat hload hbeat)

theorem Reaches.credited (hload : d.load = .ok c) (hs : Reaches c Follows s) : s.Credited d c :=
  hs.keeps (fun _ _ hfollows => hfollows.toLeads) (fun chance options => .begins (begins_start _ options) rfl rfl)
    (fun hfollows hs h => h.credited hs hfollows) (fun hs h => hs.beat hload h)
    fun hs => ⟨hs.conversation, hs.preview, fun id lane hl =>
      (hs.lanes id lane (by cases id <;> exact hl)).of_sameLists ⟨rfl, rfl, rfl⟩, hs.played⟩

/-- Whatever is carried out is noted with the one topic that it is written in, as long as a document is played, no choice
    is answered and side lanes start at topics: in each pass that carries out an action, on whatever lane, and for every
    action that the log of a request tells of. -/
theorem dispatches_credited (hload : d.load = .ok c) (hs : Reaches c Follows s) :
    (∀ last, s.lastPlayed = some last → d.Credits c last) ∧
    ∀ request, s.Follows request →
      (∀ r id e lane ref a, s.Due request r id e → r.Carries id e lane ref a →
        ∃ last, (r.carried id e lane ref a).lastPlayed = some last ∧ last.action = ref ∧ d.Credits c last) ∧
      ∀ u id ref label before after, s.respond request = some u →
        u.events.toList = s.events.toList ++ before ++ .dispatched id ref label :: after →
        ∃ r last, s.Amid request r ∧ Beats r u ∧
          r.events.toList = s.events.toList ++ before ++ [.dispatched id ref label] ∧
          r.lastPlayed = some last ∧ last.action = ref ∧ d.Credits c last := by
  have hcredited := hs.credited hload
  refine ⟨hcredited.played, fun request hfollows => ⟨fun r id e lane ref a hdue hcarries => ?_, ?_⟩⟩
  · have hcarried := (hcredited.beats hload (hdue.beats hfollows.toLeads)).beats hload hcarries.beats
    exact ⟨_, rfl, rfl, hcarried.played _ rfl⟩
  · intro u id ref label before after h hlog
    obtain ⟨r, lane, a, hr, hu, hbefore, hl, hnext, ha, hlabel⟩ := respond_dispatches hfollows.toLeads h hlog
    have hnoted := hr.beat (.dispatched hl hnext ha rfl)
    exact ⟨_, _, hnoted, hu, by simp [record, hbefore, hlabel], rfl, rfl,
      (hnoted.credited hload hcredited hfollows).played _ rfl⟩

end Session

/-- A branch that first plays another topic on a lane of its own and then calls it. -/
def Document.ferry : Document where
  profiles := []
  values := .empty
  gameCommands := .empty
  files := [{
    id := "tale"
    topics := [
      { id := "ferry"
        block := ⟨[
          { kind := .ifElse [] ⟨[
            { kind := .cue (.snippet none "toll" true) }, { kind := .cue (.snippet none "toll" false) }]⟩ }]⟩ },
      { id := "toll"
        block := ⟨[{ kind := .ifElse [] ⟨[{ kind := .cue (.comment "chime") }]⟩ }]⟩ }] }]

/-- In one frame, the side lane carries out an action within the topic that it plays, and the main lane the next action
    of the other topic. -/
theorem dispatches_credited_ferry :
    ∃ (c : Conversation) (s u r r' : Session) (last last' : LastPlayed), Document.ferry.load = .ok c ∧
      Session.Reaches c Session.Follows s ∧ s.lastPlayed = some { topic := some ⟨1⟩, action := ⟨.script ⟨3⟩, 0⟩ } ∧
      Document.ferry.Credits c { topic := some ⟨1⟩, action := ⟨.script ⟨3⟩, 0⟩ } ∧
      s.respond (.op (.update 1)) = some u ∧ s.Amid (.op (.update 1)) r ∧ s.Amid (.op (.update 1)) r' ∧
      r.lastPlayed = some last ∧ last.action = ⟨.script ⟨2⟩, 0⟩ ∧ Document.ferry.Credits c last ∧
      r'.lastPlayed = some last' ∧ last'.action = ⟨.script ⟨0⟩, 1⟩ ∧ Document.ferry.Credits c last' := by
  have hplayed : ∃ c, Document.ferry.load = .ok c ∧
      ((Session.start c (.scripted .zeros) {}).steps
        [.setTopic (some ⟨0⟩), .setRunning true, .update 1, .update 1]).any fun s =>
          decide (s.lastPlayed = some { topic := some ⟨1⟩, action := ⟨.script ⟨3⟩, 0⟩ }) &&
            (s.respond (.op (.update 1))).any fun u => decide (u.events.toList =
              s.events.toList ++ [.dispatched (.side 1) ⟨.script ⟨2⟩, 0⟩ "comment", .left (.side 1),
                .dispatched .main ⟨.script ⟨0⟩, 1⟩ "snippet", .entered .main (.script ⟨3⟩)]) :=
    ⟨_, rfl, by decide +kernel⟩
  have hfollows : ∀ op ∈ [Session.Op.setTopic (some ⟨0⟩), .setRunning true, .update 1, .update 1],
      ∀ s : Session, s.Follows (.op op) := fun op hop s =>
    { toLeads := Session.leads_of_ne (by revert op; simp), single := by revert op; simp }
  obtain ⟨c, s, hc, hreaches, hall⟩ := Session.exists_reaches hfollows hplayed
  simp only [Bool.and_eq_true, decide_eq_true_eq, Option.any_eq_true] at hall
  obtain ⟨hlast, u, hu, hlog⟩ := hall
  obtain ⟨hrests, hrequest⟩ := Session.dispatches_credited hc hreaches
  obtain ⟨-, hdispatched⟩ := hrequest (.op (.update 1)) (hfollows _ (by simp) s)
  obtain ⟨r, last, hr, -, -, hnoted, haction, hcredits⟩ :=
    hdispatched u (.side 1) _ _ [] _ hu (by rw [List.append_nil]; exact hlog)
  obtain ⟨r', last', hr', -, -, hnoted', haction', hcredits'⟩ :=
    hdispatched u .main _ _ [_, _] _ hu (by rw [List.append_assoc]; exact hlog)
  exact ⟨c, s, u, r, r', last, last', hc, hreaches, hlast, hrests _ hlast, hu, hr, hr', hnoted, haction, hcredits,
    hnoted', haction', hcredits'⟩

end Dialogue

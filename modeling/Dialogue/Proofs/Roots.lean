import Dialogue.Proofs.Guards
import Dialogue.Proofs.Unrolling

/-! Where lanes stand. Between the operations of a host, the main lane is in the list that playback starts with, unless
    there is none (`Rooted`), and no side lane is empty (`Filled`). Together with what holds of single cursors, this
    tells where every cursor stands (`cursors_stand`). -/

namespace Dialogue
namespace Session
variable {c : Conversation} {hosted : List Nat} {past : List (Session × Request)} {s t : Session} {id : LaneId}
variable {l l' : Lane} {e : Seconds}

/-! ### The main lane -/

/-- The main lane is in the list that playback starts with, or in none if there is none. -/
structure Rooted (s : Session) : Prop where
  nil : s.root? = none → s.main.cursors = []
  outermost : ∀ root, s.root? = some root → ∃ cur, s.main.cursors[0]? = some cur ∧ root.Shifts cur

/-- Without a list to start with, an empty lane stays empty. -/
theorem Grows.nil (h : s.Grows l l') (hroot : s.root? = none) (hl : l.cursors = []) : l'.cursors = [] := by
  induction h with
  | refl => exact hl
  | tail _ hchange ih =>
    cases hchange.reforms with
    | kept n f _ _ hcursors => rw [hcursors, ih, List.take_nil, List.modify_nil]
    | rooted _ hcursors => rw [hcursors, hroot, Option.toList_none]
    | entered hne => exact absurd ih hne

theorem Rooted.grows (h : s.Rooted) (hlists : SameLists s t) (hgrows : s.Grows s.main t.main) : t.Rooted where
  nil hroot := hgrows.nil (hlists.root? ▸ hroot) (h.nil (hlists.root? ▸ hroot))
  outermost root hroot := by
    obtain ⟨cur, hcur, hshifts⟩ := h.outermost root (hlists.root? ▸ hroot)
    obtain ⟨cur', hcur', hshifts'⟩ := hgrows.outermost hcur
    exact ⟨cur', hcur', hshifts.trans hshifts'⟩

theorem kept_rooted : Kept Rooted where
  begins {s} h := by
    refine ⟨fun hroot => ?_, fun root hroot => ⟨root, ?_, .refl root⟩⟩
    · rw [h.main, hroot, Option.toList_none]
    · rw [h.main, hroot, Option.toList_some]
      rfl
  steady {s t} hs h := hs.grows h.lists (h.main ▸ .refl)
  confined {s t id acting} _ hs h := by
    rcases h.lane (show t.lane? .main = some t.main from rfl) with ⟨l, hl, hgrows⟩ | ⟨hnew, -⟩
    · obtain rfl : s.main = l := Option.some.inj hl
      exact hs.grows h.lists hgrows
    · exact absurd trivial hnew

theorem Arises.rooted (h : Arises c hosted s) : s.Rooted :=
  h.keeps kept_rooted fun _ hs => ⟨hs.nil, hs.outermost⟩

/-- The main lane has a list exactly if there is one to start with. -/
theorem Rooted.ne_nil_iff (h : s.Rooted) : s.main.cursors ≠ [] ↔ s.root?.isSome := by
  cases hroot : s.root? with
  | none => simp [h.nil hroot]
  | some root =>
    obtain ⟨cur, hcur, -⟩ := h.outermost root hroot
    have hne : s.main.cursors ≠ [] := List.ne_nil_of_mem (List.mem_of_getElem? hcur)
    simp [hne]

theorem Rooted.shifts {cur : Cursor} (h : s.Rooted) (hcur : s.main.cursors[0]? = some cur) :
    ∃ root, s.root? = some root ∧ root.Shifts cur := by
  obtain ⟨root, hroot⟩ := Option.isSome_iff_exists.mp
    (h.ne_nil_iff.mp (List.ne_nil_of_mem (List.mem_of_getElem? hcur)))
  obtain ⟨cur', hcur', hshifts⟩ := h.outermost root hroot
  obtain rfl := Option.some.inj (hcur.symm.trans hcur')
  exact ⟨root, hroot, hshifts⟩

theorem root?_isSome_iff :
    s.root?.isSome ↔ s.preview.isSome ∨ ∃ t topic, s.topic = some t ∧ s.conversation.topic? t = some topic := by
  unfold root? topicCursor?
  split
  · rename_i hpreview
    simp [hpreview]
  · rename_i hpreview
    rw [Option.isSome_bind, Option.any_eq_true]
    simp [hpreview, Option.isSome_iff_exists]

theorem root?_eq_some {root : Cursor} (h : s.root? = some root) :
    if s.preview.isSome then root.list = .preview ∧ root.topic = none
    else ∃ t topic, s.topic = some t ∧ s.conversation.topic? t = some topic ∧ root.list = .script topic.root ∧
      root.topic = some t := by
  unfold root? at h
  split at h
  · obtain rfl := Option.some.inj h
    rw [if_pos ‹_›]
    exact ⟨rfl, rfl⟩
  · obtain ⟨t, ht, hcur⟩ := Option.bind_eq_some_iff.mp h
    obtain ⟨topic, htopic, rfl⟩ := Option.map_eq_some_iff.mp hcur
    rw [if_neg ‹_›]
    exact ⟨t, topic, ht, htopic, rfl, rfl⟩

/-! ### Side lanes -/

/-- No side lane is empty. -/
def Filled (s : Session) : Prop := ∀ n l, s.lane? (.side n) = some l → l.cursors ≠ []

/-- A lane that an action has started is in the list of its topic. -/
theorem Launched.ne_nil (h : s.Launched l) : l.cursors ≠ [] := by
  obtain ⟨ref, a, topic, -, hstarts, hgrows⟩ := h
  refine hgrows.ne_nil ?_
  unfold Conversation.sideTopic? at hstarts
  split at hstarts
  · obtain ⟨found, hfound⟩ := Conversation.topic?_of_findTopic? hstarts
    simp [topicLane, topicCursor?, hfound]
  · cases hstarts

theorem kept_filled : Kept Filled where
  begins {s} h n l hl := by
    rw [lane?, h.sides] at hl
    cases hl
  steady {s t} hs h n l hl := hs n l (h.lane? _ ▸ hl)
  confined {s t id acting} _ hs h n l hl := by
    rcases h.lane hl with ⟨l₀, hl₀, hgrows⟩ | ⟨-, hlaunched⟩
    · exact hgrows.ne_nil (hs n l₀ hl₀)
    · exact hlaunched.ne_nil

/-- A side lane that is empty is removed by its pass. -/
theorem pass_of_empty {n : Nat} (hl : s.lane? (.side n) = some l) (hempty : l.cursors = []) :
    s.pass (.side n) e = some (s.removeLane n) := by
  have hopened : s.opened (.side n) = s := by
    rw [opened, begun_side, endBrokenLoop_of_none hl (by rw [hempty]; rfl)]
  have htop : l.top? = none := by rw [Lane.top?, hempty, List.getLast?_nil]
  have hnext : l.action? = none := by rw [Lane.action?, htop, Option.bind_none]
  have hdepth : ¬1 < l.depth := by rw [Lane.depth, hempty]; exact Nat.not_lt_zero 1
  rw [pass, patience, passWithin_succ, hopened, hl]
  simp only [hnext, htop, hdepth]
  rfl

theorem lane?_removeLane (n : Nat) : (s.removeLane n).lane? (.side n) = none := lookup_filter_self n s.sides

theorem Filled.addSide (hnum : s.Numbered) (hs : s.Filled) (h : s.addSide l = some t) : t.Filled := by
  obtain ⟨hnum', acting, hconfined⟩ := addSide_confined hnum h
  intro n l' hl'
  rcases hconfined.lane hl' with ⟨l₀, hl₀, hgrows⟩ | ⟨-, hlaunched⟩
  · refine hgrows.ne_nil fun hempty => ?_
    by_cases hn : n = s.nextSide
    · subst hn
      have hpass := pass_of_empty (e := 0) hl₀ hempty
      obtain rfl : (s.addLane l).removeLane s.nextSide = t := Option.some.inj (hpass.symm.trans h)
      rw [lane?_removeLane] at hl'
      cases hl'
    · rw [lane?_addLane_of_ne fun heq => hn (LaneId.side.inj heq)] at hl₀
      exact hs n l₀ hl₀ hempty
  · exact hlaunched.ne_nil

theorem Rests.filled (h : Rests c IsTopicLane [] past s) : s.Filled :=
  h.keeps kept_filled (fun _ _ h => h) fun hnum hs _ hadd => hs.addSide hnum hadd

/-! ### All cursors -/

/-- Where cursors stand, when all side lanes that a host has added start at topics. The main lane has a list exactly if
    an action is tried out or the topic exists, and then the outermost list is that of the action, or else that of the
    topic. No side lane is empty, and no outermost list loops. Every cursor is within its list, which has the length that
    it takes it to have, so its next action is the one at its place, or none at the end of the list. -/
theorem cursors_stand (hs : Rests c IsTopicLane [] past s) :
    (s.main.cursors ≠ [] ↔ s.preview.isSome ∨ ∃ t topic, s.topic = some t ∧ c.topic? t = some topic) ∧
    (∀ cur, s.main.cursors[0]? = some cur →
      if s.preview.isSome then cur.list = .preview ∧ cur.topic = none
      else ∃ t topic, s.topic = some t ∧ c.topic? t = some topic ∧ cur.list = .script topic.root ∧ cur.topic = some t) ∧
    (∀ n l, s.lane? (.side n) = some l → l.cursors ≠ []) ∧
    (∀ id l cur, s.lane? id = some l → l.cursors[0]? = some cur → cur.looping = false) ∧
    ∀ id l cur, s.lane? id = some l → cur ∈ l.cursors →
      cur.length = (s.list cur.list).length ∧ cur.next ≤ cur.length ∧
        cur.action? = if cur.next < (s.list cur.list).length then some ⟨cur.list, cur.next⟩ else none := by
  have harises : Arises c [] s := hs.arises fun _ _ h => h
  obtain ⟨rfl, -, -, hgrown⟩ := harises.regular
  have hlane : ∀ id l, s.lane? id = some l → s.Grown l := fun id l => hgrown id l fun _ hn => absurd hn List.not_mem_nil
  refine ⟨harises.rooted.ne_nil_iff.trans root?_isSome_iff, fun cur hcur => ?_, hs.filled, fun id l cur hl hcur => ?_,
    fun id l cur hl hcur => ?_⟩
  · obtain ⟨root, hroot, hshifts⟩ := harises.rooted.shifts hcur
    rw [hshifts.list, hshifts.topic]
    exact root?_eq_some hroot
  · exact (hlane id l hl).guarded.root cur hcur
  · have hfits := (hlane id l hl).fits cur hcur
    refine ⟨hfits.length, hfits.next, ?_⟩
    rw [cur.action?_eq, ListRef.action?, hfits.length]

end Session

/-- A topic that starts a side lane and then waits. -/
def Document.porch : Document where
  profiles := []
  values := .empty
  gameCommands := .empty
  files := [{
    id := "tale"
    topics := [
      { id := "porch"
        block := ⟨[
          { kind := .cue (.snippet none "cat" true) },
          { kind := .wait (some (.compareVariable "dark" .eq ⟨0, none⟩)) ⟨[{ kind := .cue (.comment "rock") }]⟩ }]⟩ },
      { id := "cat"
        block := ⟨[{ delay := 5, kind := .cue (.comment "purr") }]⟩ }] }]

/-- The side lane is at its first action, and the main lane in its loop. -/
theorem cursors_stand_porch :
    ∃ c s past topic, Document.porch.load = .ok c ∧ Session.Rests c Session.IsTopicLane [] past s ∧ s.main.depth = 2 ∧
      (s.lane? (.side 1)).isSome ∧ c.topic? ⟨0⟩ = some topic ∧
      (∀ cur, s.main.cursors[0]? = some cur → cur.list = .script topic.root ∧ cur.topic = some ⟨0⟩) ∧
      ∀ id l cur, s.lane? id = some l → cur ∈ l.cursors →
        cur.length = (s.list cur.list).length ∧ cur.next ≤ cur.length ∧
          cur.action? = if cur.next < (s.list cur.list).length then some ⟨cur.list, cur.next⟩ else none := by
  have hplayed : ∃ c, Document.porch.load = .ok c ∧
      ((Session.start c (.scripted .zeros) {}).steps
        [.setTopic (some ⟨0⟩), .setRunning true, .update 1, .update 1]).any fun s =>
          decide (s.main.depth = 2) && (s.lane? (.side 1)).isSome && s.preview.isNone && decide (s.topic = some ⟨0⟩) :=
    ⟨_, rfl, by decide +kernel⟩
  obtain ⟨c, s, past, hc, hrests, hall⟩ := Session.exists_rests (by simp) hplayed
  simp only [Bool.and_eq_true, decide_eq_true_eq, Option.isNone_iff_eq_none] at hall
  obtain ⟨⟨⟨hdepth, hside⟩, hpreview⟩, htopic⟩ := hall
  obtain ⟨hmain, hroot, -, -, hcursors⟩ := Session.cursors_stand hrests
  have hne : s.main.cursors ≠ [] := by
    intro hnil
    rw [Lane.depth, hnil] at hdepth
    cases hdepth
  obtain ⟨t, topic, ht, hfound⟩ := (hmain.mp hne).resolve_left (by simp [hpreview])
  obtain rfl := Option.some.inj (htopic.symm.trans ht)
  refine ⟨c, s, past, topic, hc, hrests, hdepth, hside, hfound, fun cur hcur => ?_, hcursors⟩
  have hplace := hroot cur hcur
  rw [hpreview] at hplace
  obtain ⟨t, topic', ht', hfound', hlist, hcurrent⟩ := hplace
  obtain rfl := Option.some.inj (ht.symm.trans ht')
  obtain rfl := Option.some.inj (hfound.symm.trans hfound')
  exact ⟨hlist, hcurrent⟩

end Dialogue

import Dialogue.Proofs.Beats

/-! Where lanes go on when a list is at its end. A list is entered by the action that is next in the list below, and that
    list stays where it is until the inner one is left (`Lane.Linked`). So a lane that leaves a list goes on after the
    action that has entered the list (`returns_to_caller`). Only an answer to a choice breaks this: it enters its list
    after the list below has been put at its end. -/

namespace Dialogue

/-- Every list above the outermost one has been entered by the action that is next in the list below. -/
def Lane.Linked (l : Lane) : Prop :=
  ∀ i below cur, l.cursors[i]? = some below → l.cursors[i + 1]? = some cur →
    ∃ ref, cur.parent = some ref ∧ below.action? = some ref

namespace Lane
variable {l l' : Lane} {cur : Cursor} {outer : List Cursor} {below top : Cursor}

theorem Linked.of_cursors (h : l.Linked) (hcursors : l'.cursors = l.cursors) : l'.Linked := by
  unfold Linked
  rw [hcursors]
  exact h

theorem linked_of_length_le_one (h : l.cursors.length ≤ 1) : l.Linked := by
  intro i below cur _ hcur
  rw [List.getElem?_eq_none (by omega)] at hcur
  cases hcur

/-- Leaving lists and moving on in the list that is innermost then keeps lists linked. -/
theorem Linked.trim {f : Cursor → Cursor} (h : l.Linked) (n : Nat) (hparent : ∀ c : Cursor, (f c).parent = c.parent)
    (hcursors : l'.cursors = (l.cursors.take n).modify (n - 1) f) : l'.Linked := by
  intro i below cur hbelow hcur
  rw [hcursors] at hbelow hcur
  obtain ⟨old, hbelow, hold, hchange⟩ := Cursor.exists_pair_kept hbelow hcur
  obtain ⟨ref, hentered, hnext⟩ := h i below old hbelow hold
  refine ⟨ref, ?_, hnext⟩
  rcases hchange with rfl | rfl
  · exact hentered
  · rw [hparent, hentered]

theorem Linked.push {ref : ActionRef} (h : l.Linked) (hnext : l.action? = some ref) (hparent : cur.parent = some ref)
    (hcursors : l'.cursors = l.cursors ++ [cur]) : l'.Linked := by
  intro i below new hbelow hnew
  rw [hcursors] at hbelow hnew
  rcases Cursor.pair_of_concat hbelow hnew with ⟨hbelow, hnew⟩ | ⟨hlast, rfl⟩
  · exact h i below new hbelow hnew
  · rw [Lane.action?, Lane.top?, hlast, Option.bind_some] at hnext
    exact ⟨ref, hparent, hnext⟩

/-- The innermost list has been entered by the action that is next in the list below. -/
theorem Linked.caller (h : l.Linked) (hcursors : l.cursors = outer ++ [below, top]) :
    ∃ ref, top.parent = some ref ∧ below.action? = some ref :=
  h outer.length below top (by simp [hcursors]) (by simp [hcursors])

end Lane

namespace Session
variable {c : Conversation} {s t : Session} {id : LaneId} {l l' : Lane}

theorem Forms.linked (h : s.Forms l l') (hl : l.Linked) : l'.Linked := by
  cases h with
  | kept n f _ hshifts hcursors => exact hl.trim n (fun cur => (hshifts cur).parent) hcursors
  | rooted _ hcursors =>
    refine Lane.linked_of_length_le_one ?_
    rw [hcursors]
    exact Option.length_toList_le
  | entered hnext _ hcur hcursors => exact hl.push hnext hcur.parent hcursors

/-- All lanes are linked. -/
def Linked (s : Session) : Prop := ∀ id l, s.lane? id = some l → l.Linked

theorem Linked.beat (hs : s.Linked) (h : Beat s t) : t.Linked := by
  intro id l' hl'
  rcases h.lane hl' with ⟨l, hl, hchange⟩ | ⟨topic, parent, rfl⟩
  · cases hchange with
    | refl => exact hs id _ hl
    | single hchange => exact hchange.forms.linked (hs id l hl)
  · exact Lane.linked_of_length_le_one (isFresh_topicLane topic parent).1

theorem Linked.opening {request : Request} (hs : s.Linked) (h : s.Opening request t) : t.Linked := by
  cases h with
  | same h => exact h ▸ hs
  | @rewound q _ _ _ h =>
    subst h
    obtain ⟨hbegins, -⟩ := begins_rewind q
    intro id l hl
    cases id with
    | main =>
      obtain rfl := Option.some.inj hl
      rw [hbegins.main]
      exact Lane.linked_of_length_le_one Option.length_toList_le
    | side n =>
      rw [lane?, hbegins.sides] at hl
      cases hl

theorem Amid.linked {request : Request} (h : s.Amid request t) (hs : s.Linked) : t.Linked := h.keeps hs.opening Linked.beat

theorem Reaches.linked (h : Reaches c Leads s) : s.Linked :=
  h.keeps (fun _ _ hleads => hleads)
    (fun _ _ id l hl => by cases id <;> cases hl; exact Lane.linked_of_length_le_one (Nat.zero_le 1))
    (fun _ => Linked.opening) Linked.beat fun hs id l hl => hs id l (by cases id <;> exact hl)

/-- Where lanes return to, as long as no choice is answered and the side lanes that the host adds start at topics. Every
    list above the outermost one has been entered by the action that is next in the list directly below. So whenever the
    log of a request tells that a lane has left a list, the lane has gone on just past the action that had entered it. -/
theorem returns_to_caller (hs : Reaches c Leads s) :
    (∀ id l i below cur, s.lane? id = some l → l.cursors[i]? = some below → l.cursors[i + 1]? = some cur →
      ∃ ref, cur.parent = some ref ∧ below.action? = some ref) ∧
    ∀ request t id before after, s.Leads request → s.respond request = some t →
      t.events.toList = s.events.toList ++ before ++ .left id :: after →
      ∃ r l l' outer below top ref, s.Amid request r ∧ Beats (r.advance id) t ∧
        r.events.toList = s.events.toList ++ before ∧ (r.advance id).events.toList = r.events.toList ++ [.left id] ∧
        r.lane? id = some l ∧ l.cursors = outer ++ [below, top] ∧ top.parent = some ref ∧ below.action? = some ref ∧
        (r.advance id).lane? id = some l' ∧ l'.cursors = outer ++ [below.advance] := by
  refine ⟨fun id l i below cur hl => hs.linked id l hl i below cur, fun request t id before after hleads h hlog => ?_⟩
  obtain ⟨r, l, hr, ht, hbefore, hscript, hl, hleft⟩ := respond_leaves hleads h hlog
  obtain ⟨hleaves, hl', -⟩ := advance_of_leaves hscript hl hleft
  obtain ⟨outer, below, top, hcursors, hcursors'⟩ := Lane.exists_of_leaves hleft
  obtain ⟨ref, hparent, hnext⟩ := (hr.linked hs.linked id l hl).caller hcursors
  exact ⟨r, l, _, outer, below, top, ref, hr, ht, hbefore, hleaves, hl, hcursors, hparent, hnext, hl', hcursors'⟩

end Session

/-- A topic that is played within a branch within a loop. -/
def Document.cellar : Document where
  profiles := []
  values := .empty
  gameCommands := .empty
  files := [{
    id := "tale"
    topics := [
      { id := "cellar"
        block := ⟨[
          { kind := .wait (some (.compareVariable "light" .eq ⟨0, none⟩)) ⟨[
            { kind := .ifElse [] ⟨[
              { kind := .cue (.snippet none "drip" false) }, { kind := .cue (.comment "grope") }]⟩ }]⟩ }]⟩ },
      { id := "drip"
        block := ⟨[{ kind := .cue (.comment "plip") }, { kind := .cue (.comment "plop") }]⟩ }] }]

/-- After the last action of the topic, four lists deep, the lane goes on past the action that has called it. -/
theorem returns_to_caller_cellar :
    ∃ c s t r l l' outer below top ref, Document.cellar.load = .ok c ∧ Session.Reaches c Session.Leads s ∧
      s.main.depth = 4 ∧ s.respond (.op (.update 1)) = some t ∧ s.Amid (.op (.update 1)) r ∧
      Session.Beats (r.advance .main) t ∧
      r.events.toList = s.events.toList ++ [.dispatched .main ⟨.script ⟨3⟩, 1⟩ "comment"] ∧
      r.lane? .main = some l ∧ l.cursors = outer ++ [below, top] ∧ top.parent = some ref ∧ below.action? = some ref ∧
      (r.advance .main).lane? .main = some l' ∧ l'.cursors = outer ++ [below.advance] ∧
      ∀ i below cur, s.main.cursors[i]? = some below → s.main.cursors[i + 1]? = some cur →
        ∃ ref, cur.parent = some ref ∧ below.action? = some ref := by
  have hplayed : ∃ c, Document.cellar.load = .ok c ∧
      ((Session.start c (.scripted .zeros) {}).steps
        [.setTopic (some ⟨0⟩), .setRunning true, .update 1, .update 1, .update 1, .update 1]).any fun s =>
          decide (s.main.depth = 4) && (s.respond (.op (.update 1))).any fun t => decide (t.events.toList =
            s.events.toList ++ [.dispatched .main ⟨.script ⟨3⟩, 1⟩ "comment"] ++ [.left .main]) :=
    ⟨_, rfl, by decide +kernel⟩
  have hops : ∀ op ∈ [Session.Op.setTopic (some ⟨0⟩), .setRunning true, .update 1, .update 1, .update 1, .update 1],
      ∀ s : Session, s.Leads (.op op) := fun op hop s => Session.leads_of_ne (by revert op; simp)
  obtain ⟨c, s, hc, hreaches, hall⟩ := Session.exists_reaches hops hplayed
  simp only [Bool.and_eq_true, decide_eq_true_eq, Option.any_eq_true] at hall
  obtain ⟨hdepth, t, ht, hlog⟩ := hall
  obtain ⟨hlinked, hleaves⟩ := Session.returns_to_caller hreaches
  obtain ⟨r, l, l', outer, below, top, ref, hr, hrt, hbefore, -, hl, hcursors, hparent, hnext, hl', hcursors'⟩ :=
    hleaves _ t .main _ [] (Session.leads_of_ne (by simp)) ht hlog
  exact ⟨c, s, t, r, l, l', outer, below, top, ref, hc, hreaches, hdepth, ht, hr, hrt, hbefore, hl, hcursors, hparent,
    hnext, hl', hcursors', fun i below cur => hlinked .main s.main i below cur rfl⟩

end Dialogue

import Dialogue.Proofs.Roots

/-! Actions that a session refers to. Cursors refer to the actions that are next, that have entered their lists and that
    keep them looping, a choice to the action that asks, and a session to what has been carried out last. All of these
    are there (`references_resolve`), so no pass looks for an action in vain. -/

namespace Dialogue
namespace Session
variable {c : Conversation} {hosted : List Nat} {past : List (Session × Request)} {s t : Session} {id : LaneId}
variable {l : Lane} {cur : Cursor} {ref : ActionRef}

/-- The actions that have entered lists are there, what is asked is asked by an action, and what has been carried out is
    one. -/
structure Tied (s : Session) : Prop where
  owns : ∀ id l cur, s.lane? id = some l → cur ∈ l.cursors → s.Owns cur
  poses : ∀ k, s.choice = some k → s.Poses k
  played : ∀ last, s.lastPlayed = some last → (s.action? last.action).isSome

theorem SameLists.owns (h : SameLists s t) (hcur : s.Owns cur) : t.Owns cur := fun ref href => h.action? ▸ hcur ref href

theorem owns_topicLane (parent : Option ActionRef) (hparent : ∀ ref, parent = some ref → (s.action? ref).isSome)
    (topic : TopicId) : ∀ cur ∈ (s.topicLane topic parent).cursors, s.Owns cur := by
  intro cur hcur ref href
  obtain ⟨found, -, rfl⟩ := List.mem_map.mp hcur
  exact hparent ref href

theorem Launched.owns (h : s.Launched l) : ∀ cur ∈ l.cursors, s.Owns cur := by
  obtain ⟨ref, a, topic, ha, -, hgrows⟩ := h
  refine hgrows.owns (owns_topicLane (some ref) (fun ref' href => ?_) topic)
  obtain rfl := Option.some.inj href
  exact Option.isSome_of_eq_some ha

theorem kept_tied : Kept Tied where
  begins {s} h := by
    refine ⟨fun id l cur hl hcur => ?_, fun k hk => ?_, fun last hlast => ?_⟩
    · cases id with
      | main =>
        obtain rfl : s.main = l := Option.some.inj hl
        rw [h.main] at hcur
        exact owns_root (Option.mem_toList.mp hcur)
      | side n =>
        rw [lane?, h.sides] at hl
        cases hl
    · rw [h.choice] at hk
      cases hk
    · rw [h.played] at hlast
      cases hlast
  steady {s t} hs h :=
    { owns := fun id l cur hl hcur => h.lists.owns (hs.owns id l cur (h.lane? id ▸ hl) hcur)
      poses := fun k hk => h.lists.poses (hs.poses k (h.choice k hk))
      played := fun last hlast => h.lists.action? ▸ hs.played last (h.played ▸ hlast) }
  confined {s t id acting} _ hs h := by
    refine ⟨fun other l cur hl hcur => h.lists.owns ?_, fun k hk => h.lists.poses ?_, fun last hlast => ?_⟩
    · rcases h.lane hl with ⟨l₀, hl₀, hgrows⟩ | ⟨-, hlaunched⟩
      · exact hgrows.owns (fun cur hcur => hs.owns other l₀ cur hl₀ hcur) cur hcur
      · exact hlaunched.owns cur hcur
    · exact (h.choice k hk).elim (hs.poses k) fun hposes => hposes
    · rw [h.lists.action?]
      exact (h.played last hlast).elim (hs.played last) fun hthere => hthere

theorem Tied.addLane (hnum : s.Numbered) (hs : s.Tied) (hl : ∀ cur ∈ l.cursors, s.Owns cur) : (s.addLane l).Tied where
  owns id l' cur hl' hcur := by
    by_cases hid : id = .side s.nextSide
    · subst hid
      obtain rfl : l = l' := Option.some.inj ((lane?_addLane hnum).symm.trans hl')
      exact hl cur hcur
    · rw [lane?_addLane_of_ne hid] at hl'
      exact hs.owns id l' cur hl' hcur
  poses := hs.poses
  played := hs.played

theorem Tied.addSide {topic : TopicId} (hnum : s.Numbered) (hs : s.Tied)
    (h : s.addSide (s.topicLane topic none) = some t) : t.Tied := by
  obtain ⟨hnum', acting, hconfined⟩ := addSide_confined hnum h
  exact kept_tied.confined hnum' (hs.addLane hnum (owns_topicLane none nofun topic)) hconfined

theorem lastAction?_isSome_iff (h : s.Tied) : s.lastAction?.isSome ↔ s.lastPlayed.isSome := by
  rw [lastAction?]
  cases hlast : s.lastPlayed with
  | none => simp
  | some last => simpa using h.played last hlast

/-- The side lanes that a host adds start at topics, and nothing has entered them. -/
def IsPlainLane (s : Session) (l : Lane) : Prop := ∃ topic, l = s.topicLane topic none

/-- Every action that a session refers to is there, when all side lanes that a host has added start at topics that
    nothing has entered. Whatever keeps a cursor looping waits for a condition, and a choice offers answers of the
    action that asks. So whenever a lane is about to have a pass, its next action is found (`Arises`), and the action
    that has been carried out last is found once there has been one. -/
theorem references_resolve (hs : Rests c IsPlainLane [] past s) :
    (∀ id l cur, s.lane? id = some l → cur ∈ l.cursors →
      (∀ ref, cur.action? = some ref → (s.action? ref).isSome) ∧
      (∀ ref, cur.parent = some ref → (s.action? ref).isSome) ∧
      ∀ ref, cur.guard = some ref →
        ∃ a condition body, s.action? ref = some a ∧ a.kind = .wait (some condition) body) ∧
    (∀ k, s.choice = some k →
      ∃ a answers meanwhile name, s.action? k.action = some a ∧ a.kind = .choice answers meanwhile name ∧
        ∀ o ∈ k.offers, answers[o.option]?.map (·.text) = some o.text) ∧
    (∀ last, s.lastPlayed = some last → (s.action? last.action).isSome) ∧
    (∀ t id l ref, Arises c [] t → (t.opened id).lane? id = some l → l.action? = some ref →
      ((t.opened id).action? ref).isSome) ∧
    (s.lastAction?.isSome ↔ s.lastPlayed.isSome) := by
  have hguests : ∀ s l, IsPlainLane s l → s.IsTopicLane l := fun s l ⟨topic, hl⟩ => ⟨topic, none, hl⟩
  have htied : s.Tied := hs.keeps kept_tied hguests fun hnum hs hguest h => by
    obtain ⟨topic, rfl⟩ := hguest
    exact hs.addSide hnum h
  have hregular := (hs.arises hguests).regular
  refine ⟨fun id l cur hl hcur => ?_, htied.poses, htied.played, fun t id l ref ht hl hnext => ht.finds (by simp) hl hnext,
    lastAction?_isSome_iff htied⟩
  have hfits := (hregular.grown id l (fun _ hn => absurd hn List.not_mem_nil) hl).fits cur hcur
  exact ⟨fun ref href => hfits.action? href, htied.owns id l cur hl hcur, hfits.guard⟩

end Session

/-- A choice within a loop, next to a side lane. -/
def Document.market : Document where
  profiles := []
  values := .empty
  gameCommands := .empty
  files := [{
    id := "tale"
    topics := [
      { id := "market"
        block := ⟨[
          { kind := .cue (.snippet none "crier" true) },
          { kind := .wait (some (.compareVariable "coins" .eq ⟨0, none⟩)) ⟨[
            { kind := .choice
                [⟨"beg", none, ⟨[]⟩⟩, ⟨"steal", some (.compareVariable "dark" .eq ⟨1, none⟩), ⟨[]⟩⟩,
                  ⟨"sing", none, ⟨[{ kind := .cue (.comment "la") }]⟩⟩]
                ⟨[{ kind := .cue (.comment "stroll") }]⟩ none }]⟩ }]⟩ },
      { id := "crier"
        block := ⟨[{ delay := 5, kind := .cue (.comment "fish") }]⟩ }] }]

/-- The player is asked, and two of three answers are offered. -/
theorem references_resolve_market :
    ∃ c s past k, Document.market.load = .ok c ∧ Session.Rests c Session.IsPlainLane [] past s ∧ s.main.depth = 3 ∧
      (s.lane? (.side 1)).isSome ∧ s.choice = some k ∧ k.offers.length = 2 ∧
      (∃ a answers meanwhile name, s.action? k.action = some a ∧ a.kind = .choice answers meanwhile name ∧
        ∀ o ∈ k.offers, answers[o.option]?.map (·.text) = some o.text) ∧
      (∀ id l cur, s.lane? id = some l → cur ∈ l.cursors → ∀ ref, cur.parent = some ref → (s.action? ref).isSome) ∧
      s.lastAction?.isSome := by
  have hplayed : ∃ c, Document.market.load = .ok c ∧
      ((Session.start c (.scripted .zeros) {}).steps
        [.setTopic (some ⟨0⟩), .setRunning true, .update 1, .update 1, .update 1]).any fun s =>
          decide (s.main.depth = 3) && (s.lane? (.side 1)).isSome && s.choice.any (fun k => k.offers.length == 2) &&
            s.lastPlayed.isSome :=
    ⟨_, rfl, by decide +kernel⟩
  obtain ⟨c, s, past, hc, hrests, hall⟩ := Session.exists_rests (by simp) hplayed
  simp only [Bool.and_eq_true, decide_eq_true_eq, Option.any_eq_true, beq_iff_eq] at hall
  obtain ⟨⟨⟨hdepth, hside⟩, k, hk, hoffers⟩, hlast⟩ := hall
  obtain ⟨hcursors, hchoice, -, -, hplayed⟩ := Session.references_resolve hrests
  exact ⟨c, s, past, k, hc, hrests, hdepth, hside, hk, hoffers, hchoice k hk,
    fun id l cur hl hcur => (hcursors id l cur hl hcur).2.1, hplayed.mpr hlast⟩

end Dialogue

import Dialogue.Proofs.Chains
import Dialogue.Proofs.Cursors
import Dialogue.Proofs.Moves

/-! What the operations of a host are made of. Whatever a host does, apart from adding lanes, is a number of stretches: in
    each of them something happens on behalf of one lane, or the lanes stay as they are, or playback starts over
    (`step_stretches`). So what every stretch keeps is kept by every operation. -/

namespace Dialogue
namespace Session
variable {s t u : Session} {id : LaneId} {e : Seconds}

/-! ### Starting over -/

/-- The main lane is at its start, there are no side lanes, and nothing has been asked or played. -/
structure Begins (s : Session) : Prop where
  main : s.main = { cursors := s.root?.toList }
  sides : s.sides = []
  choice : s.choice = none
  played : s.lastPlayed = none

theorem root?_eq_none (h : ¬s.hasScript) : s.root? = none := by
  simp only [hasScript, Bool.or_eq_true, not_or, Bool.not_eq_true, Option.isSome_eq_false_iff,
    Option.isNone_iff_eq_none] at h
  simp [root?, h.1, h.2]

theorem begins_start {c : Conversation} (interpreter : Interpreter) (options : Options) :
    (start c interpreter options).Begins := ⟨rfl, rfl, rfl, rfl⟩

theorem begins_rewind (s : Session) : s.rewind.Begins ∧ SameLists s s.rewind := by
  obtain ⟨r, hr, hmain, hsides, hchoice, hplayed, hlists⟩ :
      ∃ r : Session, s.rewind = r.advance .main ∧ r.main = {} ∧ r.sides = [] ∧ r.choice = none ∧ r.lastPlayed = none ∧
        SameLists s r := ⟨_, rfl, rfl, rfl, rfl, rfl, ⟨rfl, rfl, rfl⟩⟩
  rw [hr]
  by_cases hscript : r.hasScript
  · have hroot : r.advance .main = { r with main := { cursors := r.root?.toList } } := by
      simp [advance, hscript, lane?, hmain, changeLane, Lane.prime]
    rw [hroot]
    exact ⟨⟨rfl, hsides, hchoice, hplayed⟩, hlists.trans ⟨rfl, rfl, rfl⟩⟩
  · have hstop : r.advance .main = { r with running := false } := by simp [advance, hscript]
    have hnone : ({ r with running := false } : Session).root? = none := root?_eq_none hscript
    rw [hstop]
    exact ⟨⟨by rw [hnone]; exact hmain, hsides, hchoice, hplayed⟩, hlists.trans ⟨rfl, rfl, rfl⟩⟩

theorem Begins.numbered (h : s.Begins) : s.Numbered := by
  rw [Numbered, h.sides]
  exact fun _ _ hmem => absurd hmem List.not_mem_nil

/-! ### Stretches -/

/-- The lanes and what is played on them stay as they are. -/
structure Steady (s t : Session) : Prop where
  lists : SameLists s t
  main : t.main = s.main
  sides : t.sides = s.sides
  nextSide : t.nextSide = s.nextSide
  choice : ∀ k, t.choice = some k → s.choice = some k
  played : t.lastPlayed = s.lastPlayed

theorem Steady.lane? (h : Steady s t) (id : LaneId) : t.lane? id = s.lane? id := by
  cases id <;> simp [Session.lane?, h.main, h.sides]

/-- A part of what an operation does. -/
inductive Stretch (s t : Session) : Prop where
  | confined {id acting} (h : Confined id acting s t)
  | steady (h : Steady s t)
  | rewound (hconversation : t.conversation = s.conversation) (h : t.Begins)

abbrev Stretches : Session → Session → Prop := Relation.ReflTransGen Stretch

theorem Stretch.numbered (h : Stretch s t) (hs : s.Numbered) : t.Numbered := by
  cases h with
  | confined h => exact h.numbered hs
  | steady h =>
    unfold Numbered
    rw [h.sides, h.nextSide]
    exact hs
  | rewound _ h => exact h.numbered

theorem Stretches.numbered (h : Stretches s t) (hs : s.Numbered) : t.Numbered := by
  induction h with
  | refl => exact hs
  | tail _ hstretch ih => exact hstretch.numbered ih

theorem Alters.stretches (h : Alters id s t) (hs : s.Numbered) : Stretches s t :=
  .single (.confined (.of_alters h hs))

/-! ### Frames -/

theorem Rounds.stretches {ids : List LaneId} {visits : List (LaneId × Seconds)} (hs : s.Numbered)
    (h : Rounds e s ids visits t) : Stretches s t := by
  induction h with
  | nil => exact .refl
  | cons hchain _ ih =>
    obtain ⟨-, acting, hconfined, -⟩ := hchain.confined hs
    exact (Relation.ReflTransGen.single (.confined hconfined)).trans (ih (hconfined.numbered hs))

theorem update_stretches (hs : s.Numbered) (h : s.update e = some t) : Stretches s t := by
  rw [update_eq] at h
  obtain ⟨u, hu, rfl⟩ := Option.map_eq_some_iff.mp h
  have hcamera : Stretch u { u with camera := u.camera.after e } :=
    .steady ⟨⟨rfl, rfl, rfl⟩, rfl, rfl, rfl, fun _ h => h, rfl⟩
  split at hu
  · obtain ⟨visits, hrounds⟩ := passes_rounds hu
    have haged : Stretches s (s.aged e) := (aged_touches s e .main).stretches hs
    exact (haged.trans (hrounds.stretches (haged.numbered hs))).tail hcamera
  · cases hu
    exact .single hcamera

theorem skipSpeech_stretches {left taken count : Nat} (hs : s.Numbered)
    (h : s.skipSpeech left taken = some (t, count)) : Stretches s t := by
  refine skipSpeech_preserves (P := Stretches s) (fun r u (hr : Stretches s r) hu => ?_) .refl h
  exact hr.trans (update_stretches (hr.numbered hs) hu)

/-! ### Answers -/

theorem unwind_touches {depth : Nat} (h : s.unwind id depth = some t) :
    Touches id s t ∧ ∀ l, t.lane? id = some l → l.depth = depth + 1 := by
  obtain ⟨l, hl, hdepth, rfl⟩ := eq_of_unwind h
  refine ⟨Touches.trans (.change fun k hk => .released ?_) (.record rfl nofun nofun), fun k hk => ?_⟩
  · rwa [← Option.some.inj (hl.symm.trans hk)]
  · rw [lane?_record_changeLane hl] at hk
    obtain rfl := Option.some.inj hk
    rw [Lane.depth] at hdepth
    simp only [Lane.prime, Lane.changeAt, Lane.truncate, Lane.depth, List.length_modify, List.length_take]
    omega

theorem unwind_alike {depth : Nat} (h : s.unwind id depth = some t) : Alike s t := by
  obtain ⟨-, -, -, rfl⟩ := eq_of_unwind h
  exact Alike.changeLane.trans ⟨rfl, rfl, rfl, rfl⟩

theorem cancelLoop_alike (depth : Nat) : Alike s (s.cancelLoop depth) := by
  unfold cancelLoop
  cases hu : s.unwind .main depth with
  | none => exact ⟨rfl, rfl, rfl, rfl⟩
  | some u => exact unwind_alike hu

theorem cancelLoop_touches (depth : Nat) : Touches .main s (s.cancelLoop depth) := by
  unfold cancelLoop
  cases hu : s.unwind .main depth with
  | none => exact .refl .main s
  | some u => exact (unwind_touches hu).1

/-- An answer may set a variable, and does nothing else to the stage. -/
theorem answer_alike (k : Choice) (o : Offer) :
    ∃ values, Alike { s with world := { s.world with values } } (s.answer k o) := by
  obtain ⟨r, q, values, hr, hq, hanswer⟩ := answer_sets (s := s) k o
  have hnoted : Alike s r := by
    rw [hr]
    exact Alike.changeLane.trans ⟨rfl, rfl, rfl, rfl⟩
  have hset : Alike { s with world := { s.world with values } } q := by
    rw [hq, ← hnoted.world]
    exact ⟨hnoted.conversation, hnoted.interpreter, rfl, hnoted.slots⟩
  refine ⟨values, ?_⟩
  obtain hsame | ⟨list, -, henter⟩ := hanswer
  · rwa [hsame]
  · rw [henter]
    exact hset.trans .enter

theorem answer_alters {k : Choice} (o : Offer) (hlane : ∀ l, s.lane? k.lane = some l → l.depth = k.depth - 1 + 1) :
    Alters k.lane s (s.answer k o) := by
  have hselected : Alters k.lane s
      ((s.changeLane k.lane (Lane.changeAt (k.depth - 1) Cursor.forwardEnd)).record (.selected o.option)) :=
    Alters.trans (.change fun l hl => .passed (hlane l hl)) (.record rfl nofun)
  obtain ⟨q, hq, hanswer⟩ := answer_cases (s := s) k o
  have hnoted : Alters k.lane s q := hselected.trans (Touches.of_stage hq).toAlters
  obtain hsame | ⟨list, hthere, henter⟩ := hanswer
  · rwa [hsame]
  · obtain ⟨a, ha⟩ := Option.isSome_iff_exists.mp hthere
    rw [henter]
    refine hnoted.trans (.enter fun l hl => .answered list ?_ ha)
    obtain ⟨l₀, hl₀, hgrows⟩ := hnoted.before hl
    have hdeep := hlane l₀ hl₀
    refine hgrows.ne_nil fun hnil => ?_
    rw [Lane.depth, hnil] at hdeep
    exact Nat.succ_ne_zero _ hdeep.symm

theorem select_alters (s : Session) (index : Nat) : ∃ id, Alters id s (s.select index).1 := by
  have hcleared (id : LaneId) : Alters id s { s with choice := none } :=
    .stage ⟨rfl, rfl, rfl⟩ rfl rfl rfl rfl nofun rfl fun h => h
  obtain hsame | ⟨k, -, ⟨-, hnone⟩ | ⟨o, u, hu, hanswered⟩⟩ := select_cases s index
  · rw [hsame]
    exact ⟨.main, (Touches.refl .main s).toAlters⟩
  · rw [hnone]
    exact ⟨.main, hcleared .main⟩
  · obtain ⟨hunwind, hdepth⟩ := unwind_touches hu
    rw [hanswered]
    exact ⟨k.lane, (hcleared k.lane).trans (hunwind.toAlters.trans (answer_alters o hdepth))⟩

theorem select_alike (s : Session) (index : Nat) :
    ∃ values, Alike { s with world := { s.world with values } } (s.select index).1 := by
  obtain hsame | ⟨k, -, ⟨-, hnone⟩ | ⟨o, u, hu, hanswered⟩⟩ := select_cases s index
  · rw [hsame]
    exact ⟨s.world.values, rfl, rfl, rfl, rfl⟩
  · rw [hnone]
    exact ⟨s.world.values, rfl, rfl, rfl, rfl⟩
  · have hcleared : Alike s { s with choice := none } := ⟨rfl, rfl, rfl, rfl⟩
    have hunwound := hcleared.trans (unwind_alike hu)
    obtain ⟨values, hanswer⟩ := answer_alike (s := u) k o
    have hset : Alike { s with world := { s.world with values } } { u with world := { u.world with values } } :=
      ⟨hunwound.conversation, hunwound.interpreter, by rw [hunwound.world], hunwound.slots⟩
    rw [hanswered]
    exact ⟨values, hset.trans hanswer⟩

/-! ### Operations -/

theorem rewind_stretch {r : Session} (hconversation : r.conversation = s.conversation) : Stretch s r.rewind :=
  .rewound ((begins_rewind r).2.conversation.trans hconversation) (begins_rewind r).1

theorem step_stretches {op : Op} {reply : Reply} (hs : s.Numbered) (hop : ∀ l, op ≠ .addSide l)
    (h : s.step op = some (t, reply)) : Stretches s t := by
  cases op with
  | setTopic topic =>
    cases h
    unfold setTopic
    split
    · exact .refl
    · exact .single (rewind_stretch rfl)
  | setRunning value | setPaused value | setAutoAdvance value | takeInfo | takeEvents =>
    cases h
    exact .single (.steady ⟨⟨rfl, rfl, rfl⟩, rfl, rfl, rfl, fun _ h => h, rfl⟩)
  | update e =>
    obtain ⟨u, hu, hreply⟩ := Option.bind_eq_some_iff.mp h
    cases hreply
    exact update_stretches hs hu
  | rewind =>
    cases h
    exact .single (rewind_stretch rfl)
  | advance =>
    cases h
    exact (Touches.advance : Touches .main s _).stretches hs
  | fastForward =>
    obtain ⟨⟨u, count⟩, hu, hreply⟩ := Option.bind_eq_some_iff.mp h
    cases hreply
    exact skipSpeech_stretches hs hu
  | cancelLoop depth =>
    cases h
    exact (cancelLoop_touches depth).stretches hs
  | select index =>
    cases h
    obtain ⟨id, halters⟩ := select_alters s index
    exact halters.stretches hs
  | playSingle action seconds =>
    obtain ⟨u, hu, hreply⟩ := Option.bind_eq_some_iff.mp h
    cases hreply
    have hrewound : Stretches s ({ s with preview := some action } : Session).rewind := .single (rewind_stretch rfl)
    have hbegun := hrewound.tail (c := { ({ s with preview := some action } : Session).rewind with
      running := true, paused := false }) (.steady ⟨⟨rfl, rfl, rfl⟩, rfl, rfl, rfl, fun _ h => h, rfl⟩)
    unfold playSingle at hu
    simp only at hu
    split at hu
    · exact hbegun.trans (update_stretches (Stretches.numbered hbegun hs) hu)
    · cases hu
      exact hbegun
  | addSide l => exact absurd rfl (hop l)
  | addActor actor =>
    cases h
    exact (Touches.addActor actor : Touches .main s _).stretches hs
  | removeActor name =>
    cases h
    exact (Touches.removeActor name : Touches .main s _).stretches hs
  | speech slot op =>
    cases h
    exact .single (.steady ⟨⟨rfl, rfl, rfl⟩, rfl, rfl, rfl, fun _ h => h, rfl⟩)
  | world op =>
    cases h
    exact .single (.steady ⟨⟨rfl, rfl, rfl⟩, rfl, rfl, rfl, fun _ h => h, rfl⟩)

end Session
end Dialogue

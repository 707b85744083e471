import Dialogue.Proofs.Fields
import Dialogue.Script.Decode

/-! Documents are read back from their texts. Every record of a script is written with all its fields in the order in
    which they are declared, and every value that has variants begins with the name of its own, so one argument goes
    through all of them (`Fills`, `Tagged`). Conditions and blocks stand within each other; each takes a level, so the
    reader can enter as many of them as the text has (`Condition.reads_decoderWithin`, `reads_block`). -/

namespace Dialogue
open Json

variable {n : Nat}

/-! ### Fields -/

theorem reads_optionalString (s : Option String) : Reads n (.optional .string) (ofOptionalString s) s :=
  Reads.optional (fun s _ => reads_string s) fun s => by simp [draft]

theorem reads_junction (j : Junction) : Reads n Junction.decoder j.json j := by
  cases j <;> exact reads_oneOf rfl

theorem reads_comparison (c : Comparison) : Reads n Comparison.decoder c.json c := by
  cases c <;> exact reads_oneOf rfl

theorem reads_triggerMode (mode : TriggerMode) : Reads n TriggerMode.decoder mode.json mode := by
  cases mode <;> exact reads_oneOf rfl

theorem reads_setOperator (operator : SetOperator) : Reads n SetOperator.decoder operator.json operator := by
  cases operator <;> exact reads_oneOf rfl

theorem reads_triggerAction (action : TriggerAction) : Reads n TriggerAction.decoder action.json action := by
  cases action <;> exact reads_oneOf rfl

theorem fills_operand (o : Operand) : Fills n operandFields o.members o :=
  (Fills.cons (reads_int32 o.value) (.field (reads_optionalString o.variableName))).map _

theorem fills_change (c : Change) : Fills n changeFields c.members c :=
  (Fills.cons (reads_setOperator c.operator) (fills_operand c.operand)).map _

theorem reads_word (w : Word) : Reads (n + 1) Word.decoder w.json w :=
  ((Fills.cons (reads_string w.id) (.cons (reads_seconds w.pause) (.field (reads_seconds w.duration)))).map _).reads
    (by decide) _

/-! ### Conditions -/

namespace Condition

variable {inner : Decoder Condition}

theorem reads_variants (h : ∀ c, Reads n inner c.json c) (what : String) :
    ∀ c : Condition, Reads (n + 1) (Variant.decode what (variants inner)) c.json c
  | .logic junction conditions => by
    have hlist : Reads n (.list inner) (.array (jsons conditions)) conditions := by
      rw [jsons_eq]
      exact (Reads.list fun c _ => h c).mono (Nat.le_succ n)
    rw [json]
    refine (tagged_record rfl (by simp [Variant.tag]) ?_).reads what
    exact (Fills.cons (reads_junction junction) (.field hlist)).map _
  | .hasActor actor negate => by
    rw [json]
    refine (tagged_record rfl (by decide) ?_).reads what
    exact (Fills.cons (reads_string actor) (.field (reads_bool negate))).map _
  | .actorInConversation actor negate => by
    rw [json]
    refine (tagged_record rfl (by decide) ?_).reads what
    exact (Fills.cons (reads_string actor) (.field (reads_bool negate))).map _
  | .compareVariable name comparison operand => by
    rw [json]
    refine (tagged_record rfl (by decide) ?_).reads what
    exact (Fills.cons (reads_string name) (.cons (reads_comparison comparison) (fills_operand operand))).map _
  | .compareParameter actor name comparison operand => by
    rw [json]
    refine (tagged_record rfl (by decide) ?_).reads what
    exact (Fills.cons (reads_string actor) (.cons (reads_string name)
      (.cons (reads_comparison comparison) (fills_operand operand)))).map _
  | .actorCommand actor command negate => by
    rw [json]
    refine (tagged_record rfl (by decide) ?_).reads what
    exact (Fills.cons (reads_string actor) (.cons (reads_string command) (.field (reads_bool negate)))).map _
  | .gameCommand command negate => by
    rw [json]
    refine (tagged_record rfl (by decide) ?_).reads what
    exact (Fills.cons (reads_string command) (.field (reads_bool negate))).map _
  | .trigger name mode => by
    rw [json]
    refine (tagged_record rfl (by decide) ?_).reads what
    exact (Fills.cons (reads_string name) (.field (reads_triggerMode mode))).map _

theorem exists_json (c : Condition) : ∃ ms, c.json = .object ms := by
  cases c <;> exact ⟨_, by rw [json]⟩

/-- A condition within another one takes a level, so the reader enters as many as the text has. -/
theorem reads_decoderWithin : ∀ (n : Nat) (c : Condition), Reads n (decoderWithin n) c.json c
  | 0, c => by
    obtain ⟨ms, hms⟩ := exists_json c
    exact reads_zero (hms ▸ not_fits_object)
  | n + 1, c => reads_variants (reads_decoderWithin n) _ c

theorem reads_optional (hn : n ≤ nestingLimit + 1) (condition : Option Condition) :
    Reads n (.optional decoder) (ofOption json condition) condition := by
  refine Reads.optional (fun c _ => (reads_decoderWithin _ c).mono hn) fun c => ?_
  obtain ⟨ms, hms⟩ := exists_json c
  simp [hms, draft]

end Condition

/-! ### Actions -/

section
variable {block : Decoder Block}

theorem reads_case (hn : n ≤ nestingLimit + 1) (hblock : ∀ b, Reads n block b.json b) (c : Case Block) :
    Reads (n + 1) (Case.decoder block) (Case.json ⟨c.condition, c.actions.json⟩) c :=
  ((Fills.cons (Condition.reads_optional hn c.condition) (.field (hblock c.actions))).map _).reads (by simp) _

theorem reads_answer (hn : n ≤ nestingLimit + 1) (hblock : ∀ b, Reads n block b.json b) (a : Answer Block) :
    Reads (n + 1) (Answer.decoder block) (Answer.json ⟨a.text, a.condition, a.actions.json⟩) a :=
  ((Fills.cons (reads_string a.text) (.cons (Condition.reads_optional hn a.condition)
    (.field (hblock a.actions)))).map _).reads (by simp) _

theorem tagged_cue : ∀ cue : Cue,
    Tagged n (Kind.variants block) ((Variant.tag, .string cue.label) :: cue.members) (.cue cue)
  | .cameraShot name duration =>
    tagged_keyed rfl (by decide) ((Fills.cons (reads_string name) (.field (reads_seconds duration))).map _)
  | .speak actor text minTime words => by
    have hwords : Reads n (.list Word.decoder) (.array (words.map Word.json)) words :=
      (Reads.list fun w _ => reads_word w).mono (Nat.le_add_right n 2)
    exact tagged_keyed rfl (by decide) ((Fills.cons (reads_string actor) (.cons (reads_optionalString text)
      (.cons (reads_seconds minTime) (.field hwords)))).map _)
  | .snippet file topic sideLane =>
    tagged_keyed rfl (by decide) ((Fills.cons (reads_optionalString file) (.cons (reads_string topic)
      (.field (reads_bool sideLane)))).map _)
  | .stopConversation => tagged_plain rfl
  | .stopTopic => tagged_plain rfl
  | .setVariable name change =>
    tagged_keyed rfl (by decide) ((Fills.cons (reads_string name) (fills_change change)).map _)
  | .setParameter actor name change =>
    tagged_keyed rfl (by decide)
      ((Fills.cons (reads_string actor) (.cons (reads_string name) (fills_change change))).map _)
  | .actorCommand actor command =>
    tagged_keyed rfl (by decide) ((Fills.cons (reads_string actor) (.field (reads_string command))).map _)
  | .gameCommand command => tagged_keyed rfl (by decide) ((Fills.field (reads_string command)).map _)
  | .trigger name action =>
    tagged_keyed rfl (by decide) ((Fills.cons (reads_string name) (.field (reads_triggerAction action))).map _)
  | .addActor id alias? =>
    tagged_keyed rfl (by decide) ((Fills.cons (reads_string id) (.field (reads_optionalString alias?))).map _)
  | .removeActor actor => tagged_keyed rfl (by decide) ((Fills.field (reads_string actor)).map _)
  | .comment text => tagged_keyed rfl (by decide) ((Fills.field (reads_string text)).map _)

theorem tagged_kind (hn : n ≤ nestingLimit + 1) (hblock : ∀ b, Reads n block b.json b) : ∀ kind : Kind Block,
    Tagged n (Kind.variants block) ((Variant.tag, .string kind.label) :: (kind.mapLists Block.json).members) kind
  | .cue cue => tagged_cue cue
  | .ifElse cases otherwise => by
    have hcases : Reads n (.list (Case.decoder block))
        (.array ((cases.map fun c => ⟨c.condition, c.actions.json⟩).map Case.json)) cases := by
      rw [List.map_map]
      exact (Reads.list fun c _ => reads_case hn hblock c).mono (Nat.le_add_right n 2)
    exact tagged_keyed rfl (by simp [Variant.tag, blockField]) ((Fills.cons hcases (.field (hblock otherwise))).map _)
  | .choice answers meanwhile variableName => by
    have hanswers : Reads n (.list (Answer.decoder block))
        (.array ((answers.map fun a => ⟨a.text, a.condition, a.actions.json⟩).map Answer.json)) answers := by
      rw [List.map_map]
      exact (Reads.list fun a _ => reads_answer hn hblock a).mono (Nat.le_add_right n 2)
    exact tagged_keyed rfl (by simp [Variant.tag, blockField]) ((Fills.cons hanswers (.cons (hblock meanwhile)
      (.field (reads_optionalString variableName)))).map _)
  | .wait condition body =>
    tagged_keyed rfl (by simp [Variant.tag, conditionField, blockField])
      ((Fills.cons (Condition.reads_optional hn condition) (.field (hblock body))).map _)

/-- The members of an action that are fields of every action. -/
def Action.commonMembers {L : Type} (a : Action L) : List (String × Json) :=
  [("delay", .real a.delay), ("wait_for_actor", .bool a.waits), ("wait_for_actor_id", ofOptionalString a.waitTarget),
    ("wait_speak_only", .bool a.speechOnly)]

theorem fills_common {L : Type} (a : Action L) : Fills n Action.common a.commonMembers a.withKind :=
  (Fills.cons (reads_seconds a.delay) (.cons (reads_bool a.waits) (.cons (reads_optionalString a.waitTarget)
    (.field (reads_bool a.speechOnly))))).map _

/-- No field of a kind of action is a field of every action. -/
theorem not_mem_names_common (kind : Kind Json) : ∀ e ∈ kind.members, e.1 ∉ Action.common.names := by
  have hnames : Action.common.names = ["delay", "wait_for_actor", "wait_for_actor_id", "wait_speak_only"] := rfl
  rw [hnames]
  match kind with
  | .cue cue => cases cue <;> simp [Kind.members, Cue.members, Change.members, Operand.members]
  | .ifElse .. | .choice .. | .wait .. => simp [Kind.members]

theorem Action.label_mapLists {L M : Type} (f : L → M) (a : Action L) : (a.mapLists f).label = a.label := by
  obtain ⟨_, _, _, _, kind⟩ := a
  cases kind <;> rfl

theorem reads_action (hn : n ≤ nestingLimit + 1) (hblock : ∀ b, Reads n block b.json b) (a : Action Block) :
    Reads (n + 1) (Action.decoderWith block) (a.mapLists Block.json).json a := by
  obtain ⟨kindMembers, hkindMembers⟩ :
      ∃ ms, (Variant.tag, Json.string a.label) :: (a.kind.mapLists Block.json).members = ms := ⟨_, rfl⟩
  have hjson : (a.mapLists Block.json).json = .object (a.commonMembers ++ kindMembers) := by
    rw [Action.json, Action.label_mapLists, ← hkindMembers]
    rfl
  rw [hjson]
  refine reads_object fun m hm hfits => ?_
  obtain ⟨hfits₁, hfits₂⟩ := List.forall_mem_append.mp hfits
  have hcommon := fills_common (n := n) a
  obtain ⟨full, hfill, hcomplete⟩ := hcommon.fills m hm hfits₁ (by decide)
  have htagged : Tagged n (Kind.variants block) kindMembers a.kind := hkindMembers ▸ tagged_kind hn hblock a.kind
  have ⟨hkind, hchecks⟩ := htagged { m with checked := true } hm hfits₂
  have hnames : ∀ e ∈ kindMembers, e.1 ∉ Action.common.names :=
    hkindMembers ▸ List.forall_mem_cons.mpr ⟨by simp; decide, not_mem_names_common _⟩
  -- the fields of the kind are no common fields, so they are checked and left to the kind
  have hread : Action.common.fillByName (fun d => faulty (d.check m.levels)) m
      (memberDrafts (a.commonMembers ++ kindMembers)) Action.common.blank =
        .ok (full, kindMembers.map fun e => (e.1, e.2.draft)) := by
    rw [Record.fillByName_append kindMembers (hfill _)]
    exact Record.fillByName_pass full hnames fun e he => by rw [hchecks e he]; rfl
  constructor
  · simp only [Action.decoderWith, Mode.enter, bind, Except.bind, hread, Draft.close]
    simp only [faulty, Record.completeNamed, hcomplete, map_ok_drafts, hkind]
    rfl
  · exact List.forall_mem_append.mpr ⟨hcommon.checks m.levels hm hfits₁, hchecks⟩

end

/-! ### Blocks -/

theorem Block.json_eq (b : Block) : b.json = .array (b.actions.map fun a => (a.mapLists Block.json).json) := by
  rw [Block.json, Block.fold_eq, List.map_map]
  rfl

/-- A block within another one takes a level, so the reader enters as many as the text has. -/
theorem reads_block : ∀ n ≤ nestingLimit + 1, ∀ b : Block, Reads n (Block.decoderWithin n) b.json b
  | 0, _, b => reads_zero (b.json_eq ▸ not_fits_array)
  | n + 1, hn, ⟨actions⟩ => by
    have hle : n ≤ nestingLimit + 1 := Nat.le_of_succ_le hn
    have hactions :
        Reads (n + 1) (.list (Action.decoderWith (Block.decoderWithin n))) (Block.json ⟨actions⟩) actions := by
      rw [Block.json_eq]
      exact Reads.list fun a _ => (reads_action hle (reads_block n hle) a).mono (Nat.le_succ n)
    exact hactions.map Block.mk

/-! ### Documents -/

theorem reads_profile (p : Profile) : Reads (n + 1) Profile.decoder p.json p := by
  have hparameters : Reads n (.table .int32) (ofTable ofInt32 p.parameters) p.parameters :=
    (Reads.table reads_int32).mono (Nat.le_succ n)
  have hcommands : Reads n (.table .bool) (ofTable .bool p.commands) p.commands :=
    (Reads.table reads_bool).mono (Nat.le_succ n)
  exact ((Fills.cons (reads_string p.id) (.cons (reads_optionalString p.alias?)
    (.cons hparameters (.field hcommands)))).map _).reads (by decide) _

namespace Document

theorem reads_topic (t : Topic) : Reads (nestingLimit + 1) Topic.decoder t.json t :=
  (((Fills.cons (reads_string t.id) (.field (reads_block _ (Nat.le_refl _) t.block))).map _).reads
    (by decide) _).mono (Nat.le_succ _)

theorem reads_file (f : File) : Reads (nestingLimit + 1) File.decoder f.json f := by
  have htopics : Reads (nestingLimit + 1) (.list Topic.decoder) (.array (f.topics.map Topic.json)) f.topics :=
    (Reads.list fun t _ => reads_topic t).mono (Nat.le_succ _)
  exact (((Fills.cons (reads_string f.id) (.field htopics)).map _).reads (by decide) _).mono (Nat.le_succ _)

theorem reads_document (d : Document) : Reads (nestingLimit + 1) decoder d.json d := by
  have hprofiles : Reads (nestingLimit + 1) (.list Profile.decoder) (.array (d.profiles.map Profile.json)) d.profiles :=
    (Reads.list fun p _ => reads_profile p).mono (Nat.le_add_right _ 2)
  have hvalues : Reads (nestingLimit + 1) (.table .int32) (ofTable ofInt32 d.values) d.values :=
    (Reads.table reads_int32).mono (Nat.le_succ _)
  have hcommands : Reads (nestingLimit + 1) (.table .bool) (ofTable .bool d.gameCommands) d.gameCommands :=
    (Reads.table reads_bool).mono (Nat.le_succ _)
  have hfiles : Reads (nestingLimit + 1) (.list File.decoder) (.array (d.files.map File.json)) d.files :=
    (Reads.list fun f _ => reads_file f).mono (Nat.le_succ _)
  exact (((Fills.cons hprofiles (.cons hvalues (.cons hcommands (.field hfiles)))).map _).reads
    (by decide) _).mono (Nat.le_succ _)

/-- A document is read back from its text, with whatever blanks it has been written, if it is not nested too deep for
    the reader and its times are finite and read back from texts of their own. -/
theorem ofText_json (d : Document) (hfinite : ∀ x ∈ d.json.reals, x.isFinite = true)
    (hreads : ∀ x ∈ d.json.reals, x.isFinite = true → read Decoder.seconds (Json.real x).text = .ok x)
    (hdepth : d.json.depth ≤ 127) :
    ofText d.json.text = .ok d ∧ ∀ spacing level, ofText (String.ofList (d.json.spaced spacing level)) = .ok d := by
  have hback : ∀ x ∈ d.json.reals, ReadsBack x := fun x hx => hreads x hx (hfinite x hx)
  have hdecode : decoder .start d.json.draft = .ok d := (reads_document d .start (by decide) ⟨hdepth, hback⟩).1
  have hspaced (spacing : Spacing) (level : Nat) : ofText (String.ofList (d.json.spaced spacing level)) = .ok d :=
    read_of_ofText (ofText_spaced spacing level hback) hdecode
  refine ⟨?_, hspaced⟩
  rw [Json.text, ← spaced_lines]
  exact hspaced .lines 0

end Document

/-- A quay where a choice is offered while a camera waits for the bell. -/
def Document.quay : Document where
  profiles := [{ id := "mate", alias? := some "The \"Mate\"", parameters := .ofList [("mood", -3), ("age", 41)],
                 commands := .ofList [("wave", true)] }]
  values := .ofList [("tide", 2147483647)]
  gameCommands := .ofList [("bell", false)]
  files := [{ id := "quay", topics := [{ id := "start", block := ⟨[
    { delay := 0.1, waits := false, waitTarget := some "mate", speechOnly := true,
      kind := .cue (.speak "mate" (some "Cast\noff") 1.25 [⟨"rope", 0.5, 3e-7⟩]) },
    { kind := .choice
        [{ text := "Go", actions := ⟨[{ kind := .cue .stopTopic }]⟩,
           condition := some (.logic .all [.hasActor "mate" true,
             .logic .none [.compareVariable "tide" .ge ⟨0, some "mood"⟩, .trigger "storm" .neverFired]]) }]
        ⟨[{ kind := .wait (some (.gameCommand "bell" false)) ⟨[{ kind := .cue (.cameraShot "wide" 1e20) }]⟩ }]⟩
        (some "chosen") },
    { kind := .ifElse [{ condition := none, actions := ⟨[]⟩ }]
        ⟨[{ kind := .cue (.setParameter "mate" "mood" ⟨.random, ⟨-7, none⟩⟩) }]⟩ }]⟩ }] }]

theorem ofText_json_quay :
    (∀ x ∈ Document.quay.json.reals, x.isFinite = true) ∧
      (∀ x ∈ Document.quay.json.reals, x.isFinite = true → read Decoder.seconds (Json.real x).text = .ok x) ∧
      Document.quay.json.depth ≤ 127 ∧ Document.ofText Document.quay.json.text = .ok Document.quay ∧
      Document.ofText (String.ofList (Document.quay.json.spaced .none 0)) = .ok Document.quay := by
  have hfinite : ∀ x ∈ Document.quay.json.reals, x.isFinite = true := by decide +kernel
  have hdepth : Document.quay.json.depth ≤ 127 := by decide +kernel
  have hreads : ∀ x ∈ Document.quay.json.reals, x.isFinite = true →
      read Decoder.seconds (Json.real x).text = .ok x := by
    have hvalues : ∀ x ∈ Document.quay.json.reals,
        (read Decoder.seconds (Json.real x).text).toOption = some x := by decide +kernel
    intro x hx _
    have := hvalues x hx
    cases hread : read Decoder.seconds (Json.real x).text <;> simp_all [Except.toOption]
  have h := Document.ofText_json Document.quay hfinite hreads hdepth
  exact ⟨hfinite, hreads, hdepth, h.1, h.2 .none 0⟩

end Dialogue

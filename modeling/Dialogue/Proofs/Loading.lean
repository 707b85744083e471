import Mathlib.Data.List.Basic
import Mathlib.Data.List.Induction
import Mathlib.Data.List.Nodup
import Dialogue.Proofs.Numbering

/-! What a document must be like to be loaded, and how its topics are found afterwards.

    Loading reads the names of a document from front to back: those of the actors, then that of each file with those of
    its topics. Whether a name is in order depends on the entries before it (`Entry.Breaks`), so what has been read
    without a fault is in order as a whole (`InOrder`), and this is the same as if its names are given once each
    (`inOrder_iff`). -/

namespace Dialogue

/-! ### Entries in order -/

/-- What is wrong with an entry that comes after others. The name of a file may be given again. -/
inductive Entry.Breaks (before : List Entry) : Entry → LoadError → Prop
  | unnamedActor : Breaks before (.actor "") (.emptyIdentifier .actor)
  | unnamedFile : Breaks before (.file "") (.emptyIdentifier .file)
  | unnamedTopic (file : String) : Breaks before (.topic file "") (.emptyIdentifier .topic)
  | actorAgain {id : String} (hid : id ≠ "") (h : .actor id ∈ before) : Breaks before (.actor id) (.duplicateActor id)
  | topicAgain {file id : String} (hid : id ≠ "") (h : .topic file id ∈ before) :
      Breaks before (.topic file id) (.duplicateTopic file id)

def Entry.name : Entry → String
  | .actor id | .file id | .topic _ id => id

/-- Whether an entry may be there only once. -/
def Entry.isSingle : Entry → Bool
  | .file _ => false
  | _ => true

/-- None of the entries is at fault, given those before it. -/
def InOrder (entries : List Entry) : Prop :=
  ∀ before e after, entries = before ++ e :: after → ∀ fault, ¬e.Breaks before fault

theorem Entry.fault?_eq_some_iff {e : Entry} {seen : List Entry} {fault : LoadError} :
    e.fault? seen = some fault ↔ e.Breaks seen.reverse fault := by
  constructor
  · intro h
    unfold fault? at h
    split at h
    · split at h
      case isTrue hid =>
        cases h
        exact hid ▸ .unnamedActor
      case isFalse hid =>
        obtain ⟨hmem, ⟨⟩⟩ := Option.ite_none_right_eq_some.mp h
        exact .actorAgain hid (List.mem_reverse.mpr hmem)
    · obtain ⟨hid, ⟨⟩⟩ := Option.ite_none_right_eq_some.mp h
      exact hid ▸ .unnamedFile
    · split at h
      case isTrue hid =>
        cases h
        exact hid ▸ .unnamedTopic _
      case isFalse hid =>
        obtain ⟨hmem, ⟨⟩⟩ := Option.ite_none_right_eq_some.mp h
        exact .topicAgain hid (List.mem_reverse.mpr hmem)
  · intro h
    cases h with
    | unnamedActor => rfl
    | unnamedFile => rfl
    | unnamedTopic => rfl
    | actorAgain hid h => rw [fault?, if_neg hid, if_pos (List.mem_reverse.mp h)]
    | topicAgain hid h => rw [fault?, if_neg hid, if_pos (List.mem_reverse.mp h)]

/-- An entry is at fault if it is not named, or is there already and may be there only once. -/
theorem Entry.exists_breaks_iff {e : Entry} {before : List Entry} :
    (∃ fault, e.Breaks before fault) ↔ e.name = "" ∨ e.isSingle ∧ e ∈ before := by
  constructor
  · rintro ⟨_, h⟩
    cases h with
    | unnamedActor | unnamedFile | unnamedTopic => exact .inl rfl
    | actorAgain hid h | topicAgain hid h => exact .inr ⟨rfl, h⟩
  · intro h
    by_cases hname : e.name = ""
    · cases e with
      | actor id => obtain rfl : id = "" := hname; exact ⟨_, .unnamedActor⟩
      | file id => obtain rfl : id = "" := hname; exact ⟨_, .unnamedFile⟩
      | topic file id => obtain rfl : id = "" := hname; exact ⟨_, .unnamedTopic file⟩
    · obtain ⟨hsingle, hmem⟩ := h.resolve_left hname
      cases e with
      | actor id => exact ⟨_, .actorAgain hname hmem⟩
      | file id => cases hsingle
      | topic file id => exact ⟨_, .topicAgain hname hmem⟩

theorem inOrder_concat {entries : List Entry} {e : Entry} :
    InOrder (entries ++ [e]) ↔ InOrder entries ∧ ¬∃ fault, e.Breaks entries fault := by
  constructor
  · intro h
    refine ⟨fun before e' after heq => h before e' (after ++ [e]) ?_, ?_⟩
    · rw [heq, List.append_assoc, List.cons_append]
    · exact fun ⟨fault, hfault⟩ => h entries e [] rfl fault hfault
  · rintro ⟨h, he⟩ before e' after heq fault hfault
    -- The entry at fault is the last one, or one of those before it.
    obtain rfl | ⟨after, last, rfl⟩ := List.eq_nil_or_concat' after
    · obtain ⟨rfl, hlast⟩ := List.append_inj' heq rfl
      obtain rfl := List.head_eq_of_cons_eq hlast
      exact he ⟨fault, hfault⟩
    · rw [← List.cons_append, ← List.append_assoc] at heq
      exact h before e' after (List.append_inj' heq rfl).1 fault hfault

/-- Entries are in order if they are all named, and those that may be there only once differ from each other. -/
theorem inOrder_iff {entries : List Entry} :
    InOrder entries ↔ (∀ e ∈ entries, e.name ≠ "") ∧ (entries.filter (·.isSingle)).Nodup := by
  induction entries using List.reverseRecOn with
  | nil => simp [InOrder]
  | append_singleton entries e ih =>
    have hnamed : (∀ e' ∈ entries ++ [e], e'.name ≠ "") ↔ (∀ e' ∈ entries, e'.name ≠ "") ∧ e.name ≠ "" := by
      simp [or_imp, forall_and]
    have hnodup : ((entries ++ [e]).filter (·.isSingle)).Nodup ↔
        (entries.filter (·.isSingle)).Nodup ∧ ¬(e.isSingle ∧ e ∈ entries) := by
      rw [List.filter_append]
      cases hsingle : e.isSingle with
      | false => simp [hsingle]
      | true =>
        have hmem : e ∈ entries.filter (·.isSingle) ↔ e ∈ entries := by simp [hsingle]
        rw [List.filter_cons_of_pos hsingle, List.filter_nil, List.nodup_append_comm, List.singleton_append,
          List.nodup_cons, hmem]
        simp [and_comm]
    rw [inOrder_concat, ih, Entry.exists_breaks_iff, hnamed, hnodup]
    tauto

/-! ### The first fault -/

theorem firstFault?_append {seen before : List Entry} (h : InOrder (seen.reverse ++ before)) (rest : List Entry) :
    firstFault? seen (before ++ rest) = firstFault? (before.reverse ++ seen) rest := by
  induction before generalizing seen with
  | nil => rfl
  | cons e before ih =>
    have hnone : e.fault? seen = none := by
      rw [Option.eq_none_iff_forall_ne_some]
      exact fun fault hfault => h _ _ _ rfl fault (Entry.fault?_eq_some_iff.mp hfault)
    have hpassed : firstFault? seen (e :: before ++ rest) = firstFault? (e :: seen) (before ++ rest) := by
      rw [List.cons_append, firstFault?, hnone]
    rw [hpassed, ih (by simpa using h), List.reverse_cons, List.append_assoc, List.singleton_append]

/-- Either all entries are in order, or there is one that is not while those before it are. -/
theorem firstFault?_cases {seen : List Entry} (h : InOrder seen.reverse) (entries : List Entry) :
    firstFault? seen entries = none ∧ InOrder (seen.reverse ++ entries) ∨
      ∃ fault before e after, firstFault? seen entries = some fault ∧ seen.reverse ++ entries = before ++ e :: after ∧
        InOrder before ∧ e.Breaks before fault := by
  induction entries generalizing seen with
  | nil => exact .inl ⟨rfl, by rwa [List.append_nil]⟩
  | cons e entries ih =>
    cases hfault : e.fault? seen with
    | some fault =>
      refine .inr ⟨fault, seen.reverse, e, entries, ?_, rfl, h, Entry.fault?_eq_some_iff.mp hfault⟩
      rw [firstFault?, hfault]
    | none =>
      have hnext : InOrder (e :: seen).reverse := by
        rw [List.reverse_cons, inOrder_concat]
        refine ⟨h, fun ⟨fault, hbreaks⟩ => ?_⟩
        rw [Entry.fault?_eq_some_iff.mpr hbreaks] at hfault
        cases hfault
      have hrest : firstFault? seen (e :: entries) = firstFault? (e :: seen) entries := by rw [firstFault?, hfault]
      rw [hrest, List.append_cons, ← List.reverse_cons]
      exact ih hnext

theorem inOrder_nil : InOrder [] := inOrder_iff.mpr ⟨nofun, .nil⟩

theorem firstFault?_eq_none_iff {entries : List Entry} : firstFault? [] entries = none ↔ InOrder entries := by
  obtain ⟨hnone, h⟩ | ⟨fault, before, e, after, hsome, heq, -, hbreaks⟩ :=
    @firstFault?_cases [] inOrder_nil entries
  · exact iff_of_true hnone h
  · exact iff_of_false (by simp [hsome]) fun h => h before e after heq fault hbreaks

theorem firstFault?_eq_some_iff {entries : List Entry} {fault : LoadError} :
    firstFault? [] entries = some fault ↔
      ∃ before e after, entries = before ++ e :: after ∧ InOrder before ∧ e.Breaks before fault := by
  constructor
  · intro h
    obtain ⟨hnone, -⟩ | ⟨other, before, e, after, hsome, heq, hbefore, hbreaks⟩ :=
      @firstFault?_cases [] inOrder_nil entries
    · rw [hnone] at h
      cases h
    · obtain rfl := Option.some.inj (hsome.symm.trans h)
      exact ⟨before, e, after, heq, hbefore, hbreaks⟩
  · rintro ⟨before, e, after, rfl, hbefore, hbreaks⟩
    have hfault : e.fault? before.reverse = some fault := Entry.fault?_eq_some_iff.mpr (by rwa [List.reverse_reverse])
    rw [@firstFault?_append [] before hbefore, List.append_nil, firstFault?, hfault]

/-! ### Documents -/

namespace Document
variable {d : Document} {c : Conversation}

/-- The names of the topics, each with that of its file. -/
def topicNames (d : Document) : List (String × String) := d.topics.map fun t => (t.1, t.2.id)

/-- All names are given, those of the actors once each, and those of the topics once in all files of one name. -/
structure IsNamed (d : Document) : Prop where
  actors : ∀ p ∈ d.profiles, p.id ≠ ""
  files : ∀ f ∈ d.files, f.id ≠ ""
  topics : ∀ f ∈ d.files, ∀ t ∈ f.topics, t.id ≠ ""
  actorsOnce : (d.profiles.map (·.id)).Nodup
  topicsOnce : d.topicNames.Nodup

/-- Only the entries of files may be there again. -/
theorem filter_entries (d : Document) :
    d.entries.filter (·.isSingle) =
      (d.profiles.map (·.id)).map .actor ++ d.topicNames.map fun n => .topic n.1 n.2 := by
  have hactors : (d.profiles.map fun p => Entry.actor p.id).filter (·.isSingle) = d.profiles.map fun p => .actor p.id :=
    List.filter_eq_self.mpr (by simp [Entry.isSingle])
  have htopics (f : File) : (Entry.file f.id :: f.topics.map fun t => .topic f.id t.id).filter (·.isSingle) =
      f.topics.map fun t => .topic f.id t.id := by
    rw [List.filter_cons_of_neg (by simp [Entry.isSingle])]
    exact List.filter_eq_self.mpr (by simp [Entry.isSingle])
  rw [entries, List.filter_append, hactors, List.filter_flatMap]
  simp only [htopics, topicNames, topics, List.map_map, List.map_flatMap, Function.comp_def]

theorem nodup_filter_entries_iff :
    (d.entries.filter (·.isSingle)).Nodup ↔ (d.profiles.map (·.id)).Nodup ∧ d.topicNames.Nodup := by
  have hactor : Function.Injective Entry.actor := fun _ _ h => Entry.actor.inj h
  have htopic : Function.Injective fun n : String × String => Entry.topic n.1 n.2 :=
    fun _ _ h => Prod.ext (Entry.topic.inj h).1 (Entry.topic.inj h).2
  have happart : List.Disjoint ((d.profiles.map (·.id)).map Entry.actor)
      (d.topicNames.map fun n => Entry.topic n.1 n.2) := by
    intro e hactor htopic
    obtain ⟨_, -, rfl⟩ := List.mem_map.mp hactor
    obtain ⟨_, -, h⟩ := List.mem_map.mp htopic
    cases h
  rw [filter_entries, List.nodup_append', List.nodup_map_iff hactor, List.nodup_map_iff htopic]
  exact ⟨fun h => ⟨h.1, h.2.1⟩, fun h => ⟨h.1, h.2, happart⟩⟩

theorem forall_name_ne_iff : (∀ e ∈ d.entries, e.name ≠ "") ↔
    (∀ p ∈ d.profiles, p.id ≠ "") ∧ (∀ f ∈ d.files, f.id ≠ "") ∧ ∀ f ∈ d.files, ∀ t ∈ f.topics, t.id ≠ "" := by
  simp only [entries, List.forall_mem_append, List.forall_mem_map, List.forall_mem_flatMap, List.forall_mem_cons,
    Entry.name, forall_and]

theorem inOrder_entries_iff : InOrder d.entries ↔ d.IsNamed := by
  rw [inOrder_iff, forall_name_ne_iff, nodup_filter_entries_iff]
  exact ⟨fun ⟨⟨ha, hf, ht⟩, hactors, htopics⟩ => ⟨ha, hf, ht, hactors, htopics⟩,
    fun h => ⟨⟨h.actors, h.files, h.topics⟩, h.actorsOnce, h.topicsOnce⟩⟩

/-- A document is loaded with all its actors, or the first fault is given. -/
theorem load_cases (d : Document) :
    (∃ c, firstFault? [] d.entries = none ∧ d.load = .ok c ∧ c.profiles = d.profiles) ∨
      ∃ fault, firstFault? [] d.entries = some fault ∧ d.load = .error fault := by
  unfold load
  cases firstFault? [] d.entries with
  | none => exact .inl ⟨_, rfl, rfl, rfl⟩
  | some fault => exact .inr ⟨fault, rfl, rfl⟩

theorem exists_load_iff : (∃ c, d.load = .ok c) ↔ d.IsNamed := by
  rw [← inOrder_entries_iff, ← firstFault?_eq_none_iff]
  obtain ⟨c, hnone, hload, -⟩ | ⟨fault, hsome, hload⟩ := d.load_cases
  · exact iff_of_true ⟨c, hload⟩ hnone
  · exact iff_of_false (by simp [hload]) (by simp [hsome])

theorem load_eq_error_iff {fault : LoadError} :
    d.load = .error fault ↔
      ∃ before e after, d.entries = before ++ e :: after ∧ InOrder before ∧ e.Breaks before fault := by
  rw [← firstFault?_eq_some_iff]
  obtain ⟨c, hnone, hload, -⟩ | ⟨other, hsome, hload⟩ := d.load_cases
  · simp [hnone, hload]
  · simp [hsome, hload]

theorem profiles_of_load (h : d.load = .ok c) : c.profiles = d.profiles := by
  obtain ⟨c', -, hload, hprofiles⟩ | ⟨fault, -, hload⟩ := d.load_cases
  · obtain rfl := Except.ok.inj (h.symm.trans hload)
    exact hprofiles
  · cases h.symm.trans hload

theorem topicNames_of_load (h : d.load = .ok c) : c.topics.map (fun t => (t.file, t.id)) = d.topicNames := by
  have := congrArg (List.map fun t => (t.1, t.2.1)) (blocks_of_load h)
  simpa [topicNames, Function.comp_def] using this

end Document

/-! ### Look-up -/

/-- A topic is of that name, and in the file if one is named. -/
def Topic.Named (file : Option String) (name : String) (t : Topic) : Prop :=
  t.id = name ∧ ∀ f, file = some f → f ≠ "" → t.file = f

namespace Conversation
variable {c : Conversation} {file : Option String} {name : String}

theorem findTopic?_eq (c : Conversation) (file : Option String) (name : String) :
    ∃ p : Topic → Bool, (∀ t, p t ↔ t.Named file name) ∧
      c.findTopic? file name = TopicId.mk <$> c.topics.findIdx? p := by
  refine ⟨fun t => t.id == name && (file.filter (· ≠ "")).all (· == t.file), fun t => ?_, rfl⟩
  have hfile : (file.filter (· ≠ "")).all (· == t.file) ↔ ∀ f, file = some f → f ≠ "" → t.file = f := by
    simp only [Option.all_eq_true, Option.filter_eq_some_iff, decide_eq_true_eq, beq_iff_eq, and_imp]
    exact ⟨fun h f hf hne => (h f hf hne).symm, fun h f hf hne => (h f hf hne).symm⟩
  rw [Bool.and_eq_true, beq_iff_eq, hfile]
  rfl

theorem findTopic?_eq_some_iff {i : Nat} :
    c.findTopic? file name = some ⟨i⟩ ↔ (∃ t, c.topics[i]? = some t ∧ t.Named file name) ∧
      ∀ j t, j < i → c.topics[j]? = some t → ¬t.Named file name := by
  obtain ⟨p, hp, heq⟩ := c.findTopic?_eq file name
  have hindex : c.findTopic? file name = some ⟨i⟩ ↔ c.topics.findIdx? p = some i := by simp [heq]
  rw [hindex, List.findIdx?_eq_some_iff_getElem]
  constructor
  · rintro ⟨hi, htopic, hbefore⟩
    refine ⟨⟨c.topics[i], List.getElem?_eq_getElem hi, (hp _).mp htopic⟩, fun j t hj ht hnamed => ?_⟩
    obtain ⟨hlt, rfl⟩ := List.getElem?_eq_some_iff.mp ht
    exact hbefore j hj ((hp _).mpr hnamed)
  · rintro ⟨⟨t, ht, hnamed⟩, hbefore⟩
    obtain ⟨hi, rfl⟩ := List.getElem?_eq_some_iff.mp ht
    exact ⟨hi, (hp _).mpr hnamed, fun j hj htopic =>
      hbefore j _ hj (List.getElem?_eq_getElem (Nat.lt_trans hj hi)) ((hp _).mp htopic)⟩

theorem findTopic?_eq_none_iff : c.findTopic? file name = none ↔ ∀ t ∈ c.topics, ¬t.Named file name := by
  obtain ⟨p, hp, heq⟩ := c.findTopic?_eq file name
  simp [heq, ← hp]

end Conversation

/-- Without a file, or with an empty name for it, any topic of that name will do. -/
theorem Topic.named_anywhere {file : Option String} (hfile : file = none ∨ file = some "") {name : String} {t : Topic} :
    t.Named file name ↔ t.id = name := by
  rcases hfile with rfl | rfl <;> simp [Named]

namespace Document
variable {d : Document} {c : Conversation}

theorem file_ne_of_load (h : d.load = .ok c) {t : Dialogue.Topic} (ht : t ∈ c.topics) : t.file ≠ "" := by
  have hnames : (t.file, t.id) ∈ d.topicNames := topicNames_of_load h ▸ List.mem_map_of_mem ht
  simp only [topicNames, topics, List.mem_map, List.mem_flatMap] at hnames
  obtain ⟨_, ⟨f, hf, t', -, rfl⟩, heq⟩ := hnames
  have hfile : f.id = t.file := congrArg Prod.fst heq
  exact hfile ▸ (exists_load_iff.mp ⟨c, h⟩).files f hf

theorem findTopic?_self (h : d.load = .ok c) {i : Nat} {t : Dialogue.Topic} (ht : c.topics[i]? = some t) :
    c.findTopic? (some t.file) t.id = some ⟨i⟩ := by
  let names := c.topics.map fun t => (t.file, t.id)
  have hnames : names = d.topicNames := topicNames_of_load h
  -- An earlier topic of that name would be in a file of that name as well.
  have hnodup : names.Nodup := hnames ▸ (exists_load_iff.mp ⟨c, h⟩).topicsOnce
  have hfile : t.file ≠ "" := file_ne_of_load h (List.mem_of_getElem? ht)
  refine Conversation.findTopic?_eq_some_iff.mpr ⟨⟨t, ht, rfl, fun f hf _ => Option.some.inj hf⟩, ?_⟩
  intro j t' hj ht' ⟨hid, hsame⟩
  have hsame : names[j]? = names[i]? := by
    rw [List.getElem?_map, List.getElem?_map, ht', ht, Option.map_some, Option.map_some, hid, hsame _ rfl hfile]
  have hlen : j < names.length := by
    rw [List.length_map]
    exact (List.getElem?_eq_some_iff.mp ht').1
  exact absurd ((List.getElem?_inj hlen hnodup).mp hsame) (Nat.ne_of_lt hj)

/-- A document is loaded exactly if no name in it is empty, its actors have different names, and so have the topics in
    all files of one name. Otherwise the fault is that of the first entry that has one, when the actors are read in
    order and then each file with its topics. The topics that are loaded are those of the document in their order. Each
    is found by its name and that of its file, and the first of a name if no file is named; what is not found is not
    there. -/
theorem load_checks_names (d : Document) :
    ((∃ c, d.load = .ok c) ↔ d.IsNamed) ∧
      (∀ fault, d.load = .error fault ↔
        ∃ before e after, d.entries = before ++ e :: after ∧ InOrder before ∧ e.Breaks before fault) ∧
      ∀ c, d.load = .ok c →
        c.topics.map (fun t => (t.file, t.id)) = d.topicNames ∧
        (∀ i t, c.topics[i]? = some t → c.findTopic? (some t.file) t.id = some ⟨i⟩) ∧
        (∀ file name i, file = none ∨ file = some "" →
          (c.findTopic? file name = some ⟨i⟩ ↔ (∃ t, c.topics[i]? = some t ∧ t.id = name) ∧
            ∀ j t, j < i → c.topics[j]? = some t → t.id ≠ name)) ∧
        ∀ file name, c.findTopic? file name = none ↔ ∀ t ∈ c.topics, ¬t.Named file name := by
  refine ⟨exists_load_iff, fun fault => load_eq_error_iff, fun c h => ⟨topicNames_of_load h, ?_, ?_, ?_⟩⟩
  · exact fun i t ht => findTopic?_self h ht
  · intro file name i hfile
    simp only [Conversation.findTopic?_eq_some_iff, Topic.named_anywhere hfile, ne_eq]
  · exact fun file name => Conversation.findTopic?_eq_none_iff

/-- Two files of one name, a file that has a topic of the same name as one of them, and two actors. -/
def shelf : Document where
  profiles := [⟨"ann", none, .empty, .empty⟩, ⟨"ben", none, .empty, .empty⟩]
  values := .empty
  gameCommands := .empty
  files := [
    { id := "tale", topics := [⟨"door", ⟨[]⟩⟩] },
    { id := "epilogue", topics := [⟨"inn", ⟨[]⟩⟩, ⟨"door", ⟨[]⟩⟩] },
    { id := "tale", topics := [⟨"inn", ⟨[]⟩⟩] }]

/-- The same with a topic that is there already, in front of a file without a name. -/
def fullShelf : Document :=
  { shelf with files := shelf.files ++ [{ id := "tale", topics := [⟨"door", ⟨[]⟩⟩] }, { id := "", topics := [] }] }

/-- The topic is found in the second file of that name. The fault is a topic that is there again, not the file after
    it. -/
theorem load_checks_names_shelf :
    (∃ c, shelf.load = .ok c ∧ c.findTopic? (some "tale") "inn" = some ⟨3⟩) ∧
      fullShelf.load = .error (.duplicateTopic "tale" "door") := by
  constructor
  · have hloaded : ∃ c, shelf.load = .ok c ∧ c.topics[3]? = some ⟨"tale", "inn", ⟨3⟩⟩ := ⟨_, rfl, by decide +kernel⟩
    obtain ⟨c, h, hinn⟩ := hloaded
    exact ⟨c, h, ((load_checks_names shelf).2.2 c h).2.1 3 _ hinn⟩
  · refine ((load_checks_names fullShelf).2.1 _).mpr
      ⟨shelf.entries ++ [.file "tale"], .topic "tale" "door", [.file ""], rfl, ?_, ?_⟩
    · exact inOrder_iff.mpr ⟨by decide, by decide⟩
    · exact .topicAgain (by decide) (by decide)

end Document

end Dialogue

import Mathlib.Algebra.GroupWithZero.Nat
import Dialogue.Script.Conversation

/-! Numbers for the lists of a script. A list is numbered after the lists within it, so a number stands for the block
    that is left when every number within a list is replaced by what it stands for (`Arena.block`). The numbers of a
    script stand for its blocks, and each is used in one place (`load_numbers`). -/

namespace Dialogue
variable {L M X Y Z σ : Type}

/-! ### Lists within actions -/

/-- The lists that actions hold, in their order. -/
def held (actions : List (Action L)) : List L := actions.flatMap (·.kind.lists)

@[simp] theorem held_nil : held ([] : List (Action L)) = [] := rfl

@[simp] theorem held_cons (a : Action L) (rest : List (Action L)) : held (a :: rest) = a.kind.lists ++ held rest :=
  List.flatMap_cons

theorem mem_held {l : L} {actions : List (Action L)} : l ∈ held actions ↔ ∃ a ∈ actions, l ∈ a.kind.lists :=
  List.mem_flatMap

theorem Kind.lists_mapLists (f : L → M) (kind : Kind L) : (kind.mapLists f).lists = kind.lists.map f := by
  cases kind <;> simp [Kind.lists, Kind.mapLists, Function.comp_def]

theorem held_mapLists (f : L → M) (actions : List (Action L)) :
    held (actions.map (Action.mapLists f)) = (held actions).map f := by
  induction actions with
  | nil => rfl
  | cons a rest ih => rw [List.map_cons, held_cons, held_cons, ih, List.map_append, ← Kind.lists_mapLists]; rfl

theorem Kind.mapLists_congr {f g : L → M} {kind : Kind L} (h : ∀ l ∈ kind.lists, f l = g l) :
    kind.mapLists f = kind.mapLists g := by
  cases kind with
  | cue c => rfl
  | ifElse cases otherwise =>
    have hcases : ∀ c ∈ cases, f c.actions = g c.actions := fun c hc =>
      h _ (List.mem_append_left _ (List.mem_map_of_mem hc))
    simp +contextual [Kind.mapLists, hcases, h otherwise (List.mem_append_right _ List.mem_cons_self)]
  | choice answers meanwhile name =>
    have hanswers : ∀ a ∈ answers, f a.actions = g a.actions := fun a ha =>
      h _ (List.mem_append_left _ (List.mem_map_of_mem ha))
    simp +contextual [Kind.mapLists, hanswers, h meanwhile (List.mem_append_right _ List.mem_cons_self)]
  | wait condition body => simp [Kind.mapLists, h body List.mem_cons_self]

theorem mapLists_congr {f g : L → M} {actions : List (Action L)} (h : ∀ l ∈ held actions, f l = g l) :
    actions.map (Action.mapLists f) = actions.map (Action.mapLists g) := by
  refine List.map_congr_left fun a ha => ?_
  rw [Action.mapLists, Action.mapLists, Kind.mapLists_congr fun l hl => h l (mem_held.mpr ⟨a, ha, hl⟩)]

/-! ### Blocks within blocks -/

namespace Block

theorem sizeOf_lt_of_mem_lists {kind : Kind Block} {b : Block} (h : b ∈ kind.lists) : sizeOf b < sizeOf kind := by
  cases kind with
  | cue c => cases h
  | ifElse cases otherwise =>
    rw [Kind.ifElse.sizeOf_spec]
    rcases List.mem_append.mp h with hcase | hother
    · obtain ⟨⟨condition, actions⟩, hc, rfl⟩ := List.mem_map.mp hcase
      have := List.sizeOf_lt_of_mem hc
      rw [Case.mk.sizeOf_spec] at this
      simp only
      omega
    · obtain rfl := List.mem_singleton.mp hother
      omega
  | choice answers meanwhile name =>
    rw [Kind.choice.sizeOf_spec]
    rcases List.mem_append.mp h with hanswer | hmeanwhile
    · obtain ⟨⟨text, condition, actions⟩, ha, rfl⟩ := List.mem_map.mp hanswer
      have := List.sizeOf_lt_of_mem ha
      rw [Answer.mk.sizeOf_spec] at this
      simp only
      omega
    · obtain rfl := List.mem_singleton.mp hmeanwhile
      omega
  | wait condition body =>
    obtain rfl := List.mem_singleton.mp h
    rw [Kind.wait.sizeOf_spec]
    omega

theorem sizeOf_lt_of_mem_held {b inner : Block} (h : inner ∈ held b.actions) : sizeOf inner < sizeOf b := by
  obtain ⟨⟨delay, waits, waitTarget, speechOnly, kind⟩, ha, hinner⟩ := mem_held.mp h
  have hlist := List.sizeOf_lt_of_mem ha
  have hkind := sizeOf_lt_of_mem_lists hinner
  obtain ⟨actions⟩ := b
  rw [Action.mk.sizeOf_spec] at hlist
  rw [Block.mk.sizeOf_spec]
  simp only at hlist hkind
  omega

/-- What holds of a block once it holds of the blocks within it holds of all blocks. -/
theorem within {P : Block → Prop} (h : ∀ b, (∀ inner ∈ held b.actions, P inner) → P b) (b : Block) : P b :=
  h b fun inner hinner =>
    have := sizeOf_lt_of_mem_held hinner
    within h inner
termination_by sizeOf b

/-- The number of lists of a block, itself and empty ones included. -/
def count : Block → Nat := fold fun actions => (held actions).sum + 1

theorem count_eq (b : Block) : b.count = ((held b.actions).map count).sum + 1 := by
  rw [count, fold_eq, held_mapLists]

end Block

/-! ### Replacing lists in turn -/

section Traversal
variable (part : X → L) (put : X → M → Y)

/-- A traversal that replaces one part of each element replaces the parts in turn. -/
theorem mapM_part {m : Type → Type} [Monad m] [LawfulMonad m] (f : L → m M) (xs : List X) :
    xs.mapM (fun x => return put x (← f (part x))) = List.zipWith put xs <$> (xs.map part).mapM f := by
  induction xs with
  | nil => simp
  | cons x rest ih =>
    simp only [bind_pure_comp, List.mapM_map] at ih ⊢
    simp [ih]

variable {part put}

theorem map_zipWith_put {part' : Y → M} (hput : ∀ x m, part' (put x m) = m) :
    ∀ {xs : List X} {ms : List M}, ms.length = xs.length → (List.zipWith put xs ms).map part' = ms
  | [], [], _ => rfl
  | x :: xs, m :: ms, h => by simp [hput, map_zipWith_put hput (Nat.succ.inj h)]

theorem map_zipWith_back {back : Y → Z} {view : X → Z} {g : M → L}
    (hback : ∀ x m, g m = part x → back (put x m) = view x) :
    ∀ {xs : List X} {ms : List M}, ms.map g = xs.map part → (List.zipWith put xs ms).map back = xs.map view
  | [], [], _ => rfl
  | x :: xs, m :: ms, h => by
    obtain ⟨hm, hrest⟩ := List.cons_eq_cons.mp h
    simp [hback x m hm, map_zipWith_back hback hrest]

theorem run_mapM_cons (f : L → StateM σ M) (x : L) (rest : List L) (s : σ) :
    ((x :: rest).mapM f).run s =
      (((f x).run s).1 :: ((rest.mapM f).run ((f x).run s).2).1, ((rest.mapM f).run ((f x).run s).2).2) := by
  rw [List.mapM_cons]
  rfl

theorem run_mapM_append (f : L → StateM σ M) (xs ys : List L) (s : σ) :
    ((xs ++ ys).mapM f).run s =
      (((xs.mapM f).run s).1 ++ ((ys.mapM f).run ((xs.mapM f).run s).2).1,
        ((ys.mapM f).run ((xs.mapM f).run s).2).2) := by
  rw [List.mapM_append]
  rfl

theorem length_run_mapM (f : L → StateM σ M) : ∀ (xs : List L) (s : σ), ((xs.mapM f).run s).1.length = xs.length
  | [], _ => rfl
  | x :: rest, s => by rw [run_mapM_cons, List.length_cons, length_run_mapM f rest, List.length_cons]

end Traversal

/-- The second kind has the given lists in the places of those of the first, and is the same otherwise. -/
structure Kind.Refilled (kind : Kind L) (ms : List M) (kind' : Kind M) : Prop where
  lists : kind'.lists = ms
  restores : ∀ g : M → L, ms.map g = kind.lists → kind'.mapLists g = kind

/-- The same case with another list. -/
def Case.withActions (c : Case L) (m : M) : Case M := { condition := c.condition, actions := m }

/-- The same answer with another list. -/
def Answer.withActions (a : Answer L) (m : M) : Answer M :=
  { text := a.text, condition := a.condition, actions := m }

namespace Kind

theorem refilled_ifElse {cases : List (Case L)} {otherwise : L} {ms : List M} {m : M}
    (h : ms.length = cases.length) :
    (ifElse cases otherwise).Refilled (ms ++ [m]) (.ifElse (List.zipWith Case.withActions cases ms) m) where
  lists := by rw [lists, map_zipWith_put (fun _ _ => rfl) h]
  restores g hg := by
    rw [lists, List.map_append] at hg
    obtain ⟨hms, hm⟩ := List.append_inj' hg rfl
    have hback : ∀ (c : Case L) m, g m = c.actions → (c.withActions m).withActions (g m) = id c := fun c m hm =>
      congrArg (Case.mk c.condition) hm
    exact congr (congrArg ifElse ((map_zipWith_back hback hms).trans (List.map_id _))) (List.singleton_inj.mp hm)

theorem refilled_choice {answers : List (Answer L)} {meanwhile : L} {name : Option String} {ms : List M} {m : M}
    (h : ms.length = answers.length) :
    (choice answers meanwhile name).Refilled (ms ++ [m])
      (.choice (List.zipWith Answer.withActions answers ms) m name) where
  lists := by rw [lists, map_zipWith_put (fun _ _ => rfl) h]
  restores g hg := by
    rw [lists, List.map_append] at hg
    obtain ⟨hms, hm⟩ := List.append_inj' hg rfl
    have hback : ∀ (a : Answer L) m, g m = a.actions → (a.withActions m).withActions (g m) = id a := fun a m hm =>
      congrArg (Answer.mk a.text a.condition) hm
    exact congr (congrArg (fun answers m => choice answers m name)
      ((map_zipWith_back hback hms).trans (List.map_id _))) (List.singleton_inj.mp hm)

/-- Replacing the lists of a kind replaces them in turn. -/
theorem run_mapListsM (f : L → StateM σ M) (kind : Kind L) (s : σ) :
    ∃ kind', (kind.mapListsM f).run s = (kind', ((kind.lists.mapM f).run s).2) ∧
      kind.Refilled ((kind.lists.mapM f).run s).1 kind' := by
  cases kind with
  | cue c => exact ⟨.cue c, rfl, rfl, fun _ _ => rfl⟩
  | ifElse cases otherwise =>
    have hcases := mapM_part Case.actions Case.withActions f cases
    have hlen := (length_run_mapM f (cases.map Case.actions) s).trans (List.length_map _)
    refine ⟨_, ?_, by rw [lists, run_mapM_append]; exact refilled_ifElse hlen⟩
    rw [lists, run_mapM_append]
    exact congrArg (fun traversal : StateM σ (List (Case M)) =>
      (do return .ifElse (← traversal) (← f otherwise) : StateM σ (Kind M)).run s) hcases
  | choice answers meanwhile name =>
    have hanswers := mapM_part Answer.actions Answer.withActions f answers
    have hlen := (length_run_mapM f (answers.map Answer.actions) s).trans (List.length_map _)
    refine ⟨_, ?_, by rw [lists, run_mapM_append]; exact refilled_choice hlen⟩
    rw [lists, run_mapM_append]
    exact congrArg (fun traversal : StateM σ (List (Answer M)) =>
      (do return .choice (← traversal) (← f meanwhile) name : StateM σ (Kind M)).run s) hanswers
  | wait condition body =>
    exact ⟨.wait condition ((f body).run s).1, rfl, rfl, fun g hg => congrArg _ (List.singleton_inj.mp hg)⟩

end Kind

/-- The second list of actions has the given lists in the places of those of the first, and is the same otherwise. -/
structure Refilled (actions : List (Action L)) (ms : List M) (actions' : List (Action M)) : Prop where
  held : held actions' = ms
  restores : ∀ g : M → L, ms.map g = Dialogue.held actions → actions'.map (Action.mapLists g) = actions

theorem Refilled.cons {a : Action L} {kind' : Kind M} {rest : List (Action L)} {rest' : List (Action M)}
    {ms ms' : List M} (ha : a.kind.Refilled ms kind') (hlen : ms.length = a.kind.lists.length)
    (hrest : Refilled rest ms' rest') : Refilled (a :: rest) (ms ++ ms') (a.withKind kind' :: rest') where
  held := by rw [held_cons, hrest.held, ← ha.lists]; rfl
  restores g hg := by
    rw [held_cons, List.map_append] at hg
    obtain ⟨hms, hms'⟩ := List.append_inj hg ((List.length_map g).trans hlen)
    rw [List.map_cons, hrest.restores g hms', Action.mapLists]
    exact congrArg (a.withKind · :: rest) (ha.restores g hms)

/-- Replacing the lists that actions hold replaces them in turn. -/
theorem run_mapListsM (f : L → StateM σ M) (actions : List (Action L)) (s : σ) :
    ∃ actions', (actions.mapM (Action.mapListsM f)).run s = (actions', (((held actions).mapM f).run s).2) ∧
      Refilled actions (((held actions).mapM f).run s).1 actions' := by
  induction actions generalizing s with
  | nil => exact ⟨[], rfl, rfl, fun _ _ => rfl⟩
  | cons a rest ih =>
    obtain ⟨kind', hrun, ha⟩ := a.kind.run_mapListsM f s
    obtain ⟨rest', hrunRest, hrest⟩ := ih ((a.kind.lists.mapM f).run s).2
    have hrunFirst : (a.mapListsM f).run s = (a.withKind kind', ((a.kind.lists.mapM f).run s).2) :=
      congrArg (fun result : Kind M × σ => (a.withKind result.1, result.2)) hrun
    refine ⟨a.withKind kind' :: rest', ?_, ?_⟩
    · rw [held_cons, run_mapM_append, run_mapM_cons, hrunFirst, hrunRest]
    · rw [held_cons, run_mapM_append]
      exact .cons ha (length_run_mapM f _ s) hrest

/-! ### What numbers stand for -/

namespace Arena
variable {lists more : Arena}

/-- A list by its number; an unknown one is empty. -/
def list (lists : Arena) (l : ListId) : List (Action ListId) := lists[l.index]?.getD []

/-- The block that a number stands for. Whatever a list might hold besides earlier ones is left out. -/
def block (lists : Arena) (l : ListId) : Block :=
  ⟨(list lists l).map (Action.mapLists fun m => if _ : m.index < l.index then block lists m else ⟨[]⟩)⟩
termination_by l.index

/-- Adding lists does not change what the numbers of those before stand for. -/
theorem block_append {l : ListId} (h : l.index < lists.size) : block (lists ++ more) l = block lists l := by
  rw [block, block, list, list, Array.getElem?_append_left h]
  refine congrArg Block.mk (mapLists_congr fun m _ => ?_)
  by_cases hm : m.index < l.index
  · rw [dif_pos hm, dif_pos hm, block_append (Nat.lt_trans hm h)]
  · rw [dif_neg hm, dif_neg hm]
termination_by l.index

/-- Where a list holds earlier ones only, nothing is left out. -/
theorem block_eq {l : ListId} (h : ∀ m ∈ held (list lists l), m.index < l.index) :
    block lists l = ⟨(list lists l).map (Action.mapLists (block lists))⟩ := by
  rw [block]
  exact congrArg Block.mk (mapLists_congr fun m hm => dif_pos (h m hm))

end Arena

/-- After some lists, others are added for blocks, and numbers stand for the blocks. -/
structure Numbers (lists : Arena) (blocks : List Block) (ids : List ListId) (added : Arena) : Prop where
  stand : ids.map (Arena.block (lists ++ added)) = blocks
  size : added.size = (blocks.map Block.count).sum
  earlier : ∀ i actions, added[i]? = some actions → ∀ m ∈ held actions, m.index < lists.size + i
  once : (added.toList.flatMap held ++ ids).Perm ((List.range' lists.size added.size).map ListId.mk)

namespace Numbers
variable {lists added more : Arena} {blocks blocks' : List Block} {ids ids' : List ListId}

theorem nil : Numbers lists [] [] #[] where
  stand := rfl
  size := rfl
  earlier _ _ h := by simp at h
  once := .refl _

/-- Every number given is that of a list that has been added. -/
theorem lt (h : Numbers lists blocks ids added) {l : ListId} (hl : l ∈ ids) : l.index < (lists ++ added).size := by
  have hrange := h.once.subset (List.mem_append_right _ hl)
  obtain ⟨i, hi, rfl⟩ := List.mem_map.mp hrange
  rw [Array.size_append]
  exact (List.mem_range'_1.mp hi).2

theorem append (h : Numbers lists blocks ids added) (h' : Numbers (lists ++ added) blocks' ids' more) :
    Numbers lists (blocks ++ blocks') (ids ++ ids') (added ++ more) where
  stand := by
    rw [← Array.append_assoc, List.map_append, h'.stand, ← h.stand]
    exact congrArg (· ++ blocks') (List.map_congr_left fun l hl => Arena.block_append (h.lt hl))
  size := by rw [Array.size_append, h.size, h'.size, List.map_append, List.sum_append]
  earlier i actions hi m hm := by
    by_cases hlt : i < added.size
    · rw [Array.getElem?_append_left hlt] at hi
      exact h.earlier i actions hi m hm
    · rw [Array.getElem?_append_right (Nat.le_of_not_lt hlt)] at hi
      have := h'.earlier _ actions hi m hm
      rw [Array.size_append] at this
      omega
  once := by
    rw [Array.toList_append, List.flatMap_append, Array.size_append, ← List.range'_append_1, List.map_append,
      ← Array.size_append]
    have hswap := List.perm_append_comm_assoc (more.toList.flatMap held) ids ids'
    rw [List.append_assoc]
    refine (hswap.append_left _).trans ?_
    rw [← List.append_assoc]
    exact h.once.append h'.once

/-- A list is added after the lists within it. -/
theorem node {actions : List (Action Block)} {actions' : List (Action ListId)}
    (h : Numbers lists (held actions) ids added) (hactions : Refilled actions ids actions') :
    Numbers lists [⟨actions⟩] [⟨(lists ++ added).size⟩] (added.push actions') where
  stand := by
    have hlist : Arena.list ((lists ++ added).push actions') ⟨(lists ++ added).size⟩ = actions' := by
      rw [Arena.list, Array.getElem?_push_size, Option.getD_some]
    have hearlier : ∀ m ∈ held actions', m.index < (lists ++ added).size := by
      rw [hactions.held]
      exact fun m => h.lt
    have hsame : ∀ m ∈ held actions',
        Arena.block ((lists ++ added).push actions') m = Arena.block (lists ++ added) m := fun m hm => by
      rw [Array.push_eq_append, Arena.block_append (hearlier m hm)]
    rw [Array.append_push, List.map_singleton, Arena.block_eq (by rwa [hlist]), hlist, mapLists_congr hsame,
      hactions.restores _ h.stand]
  size := by rw [Array.size_push, h.size, List.map_singleton, Block.count_eq, List.sum_singleton]
  earlier i actions hi m hm := by
    rw [Array.getElem?_push] at hi
    split at hi
    · rename_i hlast
      obtain rfl := Option.some.inj hi
      rw [hactions.held] at hm
      rw [hlast, ← Array.size_append]
      exact h.lt hm
    · exact h.earlier i actions hi m hm
  once := by
    have hchildren : (added.push actions').toList.flatMap held = added.toList.flatMap held ++ ids := by
      rw [Array.toList_push, List.flatMap_append, List.flatMap_singleton, hactions.held]
    rw [hchildren, Array.size_push, List.range'_1_concat, List.map_append, Array.size_append]
    exact h.once.append (.refl _)

end Numbers

/-! ### Interning -/

theorem Kind.mapListsM_mapLists {m : Type → Type} [Monad m] [LawfulMonad m] (f : L → m M) (kind : Kind L) :
    (kind.mapLists f).mapListsM id = kind.mapListsM f := by
  cases kind <;> simp [mapLists, mapListsM, Function.comp_def]

theorem Block.intern_eq (b : Block) :
    b.intern = b.actions.mapM (Action.mapListsM intern) >>= fun actions =>
      modifyGet fun lists => (⟨lists.size⟩, lists.push actions) := by
  have hactions : (b.actions.map (Action.mapLists intern)).mapM (Action.mapListsM id) =
      b.actions.mapM (Action.mapListsM intern) := by
    rw [List.mapM_map]
    refine congrArg (b.actions.mapM ·) (funext fun a => ?_)
    exact congrArg (a.withKind <$> ·) (Kind.mapListsM_mapLists intern a.kind)
  rw [← hactions]
  exact fold_eq _ b

/-- Numbering a block adds lists, and gives a number that stands for the block. -/
def Block.Interns (b : Block) : Prop :=
  ∀ lists, ∃ added, (b.intern.run lists).2 = lists ++ added ∧ Numbers lists [b] [(b.intern.run lists).1] added

theorem Numbers.mapM_intern : ∀ {blocks : List Block}, (∀ b ∈ blocks, b.Interns) → ∀ lists,
    ∃ added, ((blocks.mapM Block.intern).run lists).2 = lists ++ added ∧
      Numbers lists blocks ((blocks.mapM Block.intern).run lists).1 added
  | [], _, lists => ⟨#[], (Array.append_empty).symm, .nil⟩
  | b :: rest, h, lists => by
    obtain ⟨added, hrun, hb⟩ := h b List.mem_cons_self lists
    obtain ⟨more, hrunRest, hrest⟩ := mapM_intern (fun b hb => h b (List.mem_cons_of_mem _ hb)) (lists ++ added)
    refine ⟨added ++ more, ?_, ?_⟩
    · rw [run_mapM_cons, hrun, hrunRest, Array.append_assoc]
    · rw [run_mapM_cons, hrun]
      exact hb.append hrest

theorem Block.interns (b : Block) : b.Interns := by
  induction b using within with
  | h b ih =>
    obtain ⟨actions⟩ := b
    intro lists
    obtain ⟨added, hrun, hinner⟩ := Numbers.mapM_intern ih lists
    obtain ⟨actions', hactions, hrefilled⟩ := run_mapListsM intern actions lists
    have hintern : (Block.mk actions).intern.run lists =
        (⟨(lists ++ added).size⟩, (lists ++ added).push actions') := by
      rw [intern_eq, StateT.run_bind, hactions, ← hrun]
      rfl
    refine ⟨added.push actions', ?_, ?_⟩
    · rw [hintern, Array.append_push]
    · rw [hintern]
      exact hinner.node hrefilled

/-! ### Conversations -/

namespace Conversation

/-- The block that a number stands for: the actions of the list, with every number within them replaced by what it
    stands for. -/
def block (c : Conversation) (l : ListId) : Block := Arena.block c.lists l

/-- All uses of numbers: a topic starts with its root, and an action holds lists. -/
def references (c : Conversation) : List ListId := c.topics.map (·.root) ++ c.lists.toList.flatMap held

end Conversation

namespace Document
variable {d : Document} {c : Conversation}

/-- The topic as it is played, starting with the list of that number. -/
def startingAt (t : String × Topic) (root : ListId) : Dialogue.Topic := { file := t.1, id := t.2.id, root }

/-- The topics are those of the document, starting with lists that stand for their blocks. -/
theorem numbers_of_load (h : d.load = .ok c) :
    ∃ roots, c.topics = List.zipWith startingAt d.topics roots ∧ roots.length = d.topics.length ∧
      Numbers #[] (d.topics.map (·.2.block)) roots c.lists := by
  let blocks := d.topics.map fun t => t.2.block
  let numbering := (blocks.mapM Block.intern).run #[]
  have hintern : d.intern = List.zipWith startingAt d.topics <$> blocks.mapM Block.intern :=
    mapM_part (fun t : String × Topic => t.2.block) startingAt Block.intern d.topics
  obtain ⟨lists, hlists, hnumbers⟩ := Numbers.mapM_intern (fun b (_ : b ∈ blocks) => b.interns) #[]
  have hrun : d.intern.run #[] = (List.zipWith startingAt d.topics numbering.1, lists) := by
    rw [hintern, ← (Array.empty_append : #[] ++ lists = lists), ← hlists]
    rfl
  have hlen : numbering.1.length = d.topics.length := (length_run_mapM _ _ _).trans (List.length_map _)
  unfold load at h
  rw [hrun] at h
  split at h
  · cases h
  · obtain rfl := Except.ok.inj h
    exact ⟨numbering.1, rfl, hlen, hnumbers⟩

/-- The root of each topic stands for the block that is written. -/
theorem blocks_of_load (h : d.load = .ok c) :
    c.topics.map (fun t => (t.file, t.id, c.block t.root)) = d.topics.map fun t => (t.1, t.2.id, t.2.block) := by
  obtain ⟨roots, htopics, -, hnumbers⟩ := numbers_of_load h
  have hblocks : roots.map c.block = d.topics.map fun t => t.2.block := by
    rw [← hnumbers.stand, Array.empty_append]
    rfl
  rw [htopics]
  exact map_zipWith_back (fun t root hroot => by rw [startingAt, hroot]) hblocks

theorem roots_of_load (h : d.load = .ok c) :
    Numbers #[] (d.topics.map fun t => t.2.block) (c.topics.map (·.root)) c.lists := by
  obtain ⟨roots, htopics, hlen, hnumbers⟩ := numbers_of_load h
  rwa [htopics, map_zipWith_put (fun _ _ => rfl) hlen]

end Document

namespace Conversation
variable {c : Conversation} {d : Document}

/-- A list holds earlier ones only. -/
theorem index_lt_of_held (h : d.load = .ok c) {l m : ListId} (hm : m ∈ held (c.list l)) : m.index < l.index := by
  have hearlier := (Document.roots_of_load h).earlier l.index
  rw [list] at hm
  cases hlist : c.lists[l.index]? with
  | none => simp [hlist] at hm
  | some actions =>
    have := hearlier actions hlist m (by simpa [hlist] using hm)
    simpa using this

/-- Every list of a document is used once, by a topic or an action. -/
theorem references_perm (h : d.load = .ok c) :
    c.references.Perm ((List.range c.lists.size).map ListId.mk) := by
  have honce := (Document.roots_of_load h).once
  rw [Array.size_empty, ← List.range_eq_range'] at honce
  exact List.perm_append_comm.trans honce

end Conversation

/-- Numbering the lists of a document neither loses nor shares any. Each root stands for the block of its topic, where a
    number stands for its list with the numbers within replaced by what they stand for. A list holds lists with lower
    numbers only, and each list is referred to once, by one topic or in one place of one action. So there are as many
    lists as are written, empty ones included. -/
theorem Document.load_numbers {d : Document} {c : Conversation} (h : d.load = .ok c) :
    c.topics.map (fun t => (t.file, t.id, c.block t.root)) = d.topics.map (fun t => (t.1, t.2.id, t.2.block)) ∧
      (∀ l, c.block l = ⟨(c.list l).map (Action.mapLists c.block)⟩) ∧
      (∀ l, ∀ m ∈ held (c.list l), m.index < l.index) ∧
      c.references.Perm ((List.range c.lists.size).map ListId.mk) ∧
      c.lists.size = (d.topics.map fun t => t.2.block.count).sum := by
  have hearlier : ∀ l, ∀ m ∈ held (c.list l), m.index < l.index := fun l m => Conversation.index_lt_of_held h
  have hsize := (roots_of_load h).size
  rw [List.map_map] at hsize
  exact ⟨blocks_of_load h, fun l => Arena.block_eq (hearlier l), hearlier, Conversation.references_perm h, hsize⟩

/-- A topic with a branch, a choice and a loop, some of whose lists are empty, and another topic. -/
def Document.crossroads : Document where
  profiles := []
  values := .empty
  gameCommands := .empty
  files := [{
    id := "tale"
    topics := [
      { id := "crossroads"
        block := ⟨[
          { kind := .ifElse [⟨some (.compareVariable "lost" .eq ⟨1, none⟩), ⟨[]⟩⟩]
              ⟨[{ kind := .wait none ⟨[{ kind := .cue (.comment "look") }]⟩ }]⟩ },
          { delay := 2
            kind := .choice [⟨"left", none, ⟨[]⟩⟩, ⟨"right", none, ⟨[{ kind := .cue .stopTopic }]⟩⟩] ⟨[]⟩ none }]⟩ },
      { id := "inn", block := ⟨[]⟩ }] }]

/-- Eight lists, numbered after the lists within them. -/
theorem load_numbers_crossroads :
    ∃ c, Document.crossroads.load = .ok c ∧ c.lists.size = 8 ∧
      c.references.map (·.index) = [6, 7, 1, 0, 2, 3, 4, 5] ∧
      c.topics.map (fun t => (t.file, t.id, c.block t.root)) =
        Document.crossroads.topics.map (fun t => (t.1, t.2.id, t.2.block)) ∧
      (∀ l, c.block l = ⟨(c.list l).map (Action.mapLists c.block)⟩) ∧
      (∀ l, ∀ m ∈ held (c.list l), m.index < l.index) ∧
      c.references.Perm ((List.range c.lists.size).map ListId.mk) ∧
      c.lists.size = (Document.crossroads.topics.map fun t => t.2.block.count).sum := by
  have hplayed : ∃ c, Document.crossroads.load = .ok c ∧ c.lists.size = 8 ∧
      c.references.map (·.index) = [6, 7, 1, 0, 2, 3, 4, 5] :=
    ⟨_, rfl, by decide +kernel⟩
  obtain ⟨c, hc, hsize, hreferences⟩ := hplayed
  exact ⟨c, hc, hsize, hreferences, Document.load_numbers hc⟩

end Dialogue

import Dialogue.Proofs.Choices

/-! Where an answer goes. What the player is asked stays when the list that plays meanwhile is left in another way than
    by an answer: the conversation or the topic is stopped, a loop around the list is over, or the host goes on. The
    log tells whether this has happened, event by event (`Choice.read`), and so for every run (`Moves.tells`). The same is
    read of the list of an answer, which plays where that list has been. -/

namespace Dialogue

namespace Choice

/-- What the log tells of a lane while a choice waits. -/
structure Inside where
  /-- The lists within the one that plays meanwhile, with whether each has been called as a topic. -/
  topics : List Bool := []
  /-- Whether the last action calls a topic. -/
  calling : Bool := false

/-- The lists up to the topic that has been called last. -/
def upToTopic (topics : List Bool) : List Bool := (topics.reverse.dropWhile (!·)).reverse

/-- The lists within the one that plays meanwhile after another event; nothing, once that one is left. -/
def read (k : Choice) (inside : Inside) (e : Event) : Option Inside :=
  if e.lane? = some k.lane then
    match e with
    | .dispatched _ _ label =>
      if label = "stop_conversation" then none
      else if label = "stop_topic" then
        if upToTopic inside.topics = [] then none else some { inside with topics := upToTopic inside.topics }
      else some { inside with calling := label == "snippet" }
    | .entered _ _ => some { inside with topics := inside.topics ++ [inside.calling] }
    | .left _ => if inside.topics = [] then none else some { inside with topics := inside.topics.dropLast }
    | .loopCancelled _ depth | .loopEnded _ depth =>
      -- The list of an answer, which may be entered now, is not called as a topic.
      if depth < k.depth then none else some { topics := inside.topics.take (depth + 1 - k.depth) }
    | _ => some inside
  else if e = .rewound then none
  else some inside

/-! ### The lists of a choice -/

/-- The cursors of a lane in which a choice waits, or the list of its answer plays. The cursors `below` have not moved,
    the one above them is known to be as `P` says, however often the lane goes on there, and the lists of those `topics`
    come above. -/
structure Layered (k : Choice) (below : List Cursor) (P : Cursor → Prop) (topics : List Bool) (cursors : List Cursor) :
    Prop where
  depth : k.depth = below.length + 1
  ne_nil : below ≠ []
  lasts : ∀ c, P c → P c.advance
  split : ∃ layer own, cursors = below ++ layer :: own ∧ own.map (·.topic.isSome) = topics ∧ layer.topic = none ∧ P layer

namespace Layered
variable {k : Choice} {below : List Cursor} {P : Cursor → Prop} {topics : List Bool} {cursors : List Cursor}

theorem length_eq (h : k.Layered below P topics cursors) : cursors.length = k.depth + topics.length := by
  obtain ⟨layer, own, rfl, rfl, -⟩ := h.split
  rw [h.depth, List.length_map, List.length_append, List.length_cons]
  omega

theorem layer (h : k.Layered below P topics cursors) : ∃ cur, cursors[k.depth - 1]? = some cur ∧ P cur := by
  obtain ⟨cur, own, rfl, -, -, hcur⟩ := h.split
  refine ⟨cur, ?_, hcur⟩
  rw [h.depth, Nat.add_sub_cancel, List.getElem?_append_right (Nat.le_refl _), Nat.sub_self, List.getElem?_cons_zero]

theorem push (h : k.Layered below P topics cursors) (cur : Cursor) :
    k.Layered below P (topics ++ [cur.topic.isSome]) (cursors ++ [cur]) := by
  obtain ⟨layer, own, rfl, htopics, hlayer⟩ := h.split
  exact ⟨h.depth, h.ne_nil, h.lasts, layer, own ++ [cur], by simp, by simp [htopics], hlayer⟩

theorem take {n : Nat} (h : k.Layered below P topics cursors) (hn : k.depth ≤ n) :
    k.Layered below P (topics.take (n - k.depth)) (cursors.take n) := by
  obtain ⟨layer, own, rfl, rfl, hlayer⟩ := h.split
  have hdepth := h.depth
  obtain ⟨m, rfl⟩ : ∃ m, n = below.length + (m + 1) := ⟨n - k.depth, by omega⟩
  have hm : below.length + (m + 1) - k.depth = m := by omega
  exact ⟨hdepth, h.ne_nil, h.lasts, layer, own.take m, List.take_length_add_append _, by rw [hm, List.map_take], hlayer⟩

/-- A cursor above the choice's list changes, or that list goes on. -/
theorem modify {n : Nat} {f : Cursor → Cursor} (h : k.Layered below P topics cursors) (hn : k.depth - 1 ≤ n)
    (htopic : ∀ c, (f c).topic = c.topic) (hlayer : n = k.depth - 1 → ∀ c, P c → P (f c)) :
    k.Layered below P topics (cursors.modify n f) := by
  obtain ⟨layer, own, rfl, rfl, hnone, hP⟩ := h.split
  have hdepth := h.depth
  obtain ⟨m, rfl⟩ : ∃ m, n = below.length + m := ⟨n - below.length, by omega⟩
  rw [modify_length_add_append]
  cases m with
  | zero => exact ⟨hdepth, h.ne_nil, h.lasts, f layer, own, rfl, rfl, (htopic layer).trans hnone, hlayer (by omega) _ hP⟩
  | succ m =>
    have hsame : (own.modify m f).map (·.topic.isSome) = own.map (·.topic.isSome) :=
      map_modify_of_eq (fun c => by rw [htopic]) own m
    exact ⟨hdepth, h.ne_nil, h.lasts, layer, own.modify m f, rfl, hsame, hnone, hP⟩

/-- The lists above one that is itself above the choice's are left, and that one changes. -/
theorem unwound {d : Nat} {f : Cursor → Cursor} (h : k.Layered below P topics cursors) (hd : k.depth ≤ d)
    (htopic : ∀ c, (f c).topic = c.topic) :
    k.Layered below P (topics.take (d + 1 - k.depth)) ((cursors.take (d + 1)).modify d f) := by
  have hdepth := h.depth
  have htake := h.take (n := d + 1) (by omega)
  exact htake.modify (by omega) htopic fun hn => absurd hn (by omega)

/-- What a lane that goes on leaves is within the choice's list, or that list itself. -/
theorem advance (h : k.Layered below P topics cursors) :
    ((Lane.mk cursors true 0).advance.2 = false ∧ k.Layered below P topics (Lane.mk cursors true 0).advance.1.cursors) ∨
    ((Lane.mk cursors true 0).advance.2 = true ∧
      if topics = [] then (Lane.mk cursors true 0).advance.1.cursors.length < k.depth
      else k.Layered below P topics.dropLast (Lane.mk cursors true 0).advance.1.cursors) := by
  have hlength := h.length_eq
  rcases @Lane.advance_cursors cursors with ⟨hstays, hkept⟩ | ⟨hleaves, -, hleft⟩
  · rw [hkept]
    exact .inl ⟨hstays, h.modify (by omega) (fun _ => rfl) fun _ => h.lasts⟩
  · refine .inr ⟨hleaves, ?_⟩
    rw [hleft]
    split
    · rename_i hnone
      have hpos := h.depth
      simp only [List.length_modify, List.length_take]
      rw [hnone, List.length_nil] at hlength
      omega
    · rename_i hsome
      have hpos := List.length_pos_iff.mpr hsome
      have htake := h.take (n := cursors.length - 1) (by omega)
      have hdrop : topics.take (cursors.length - 1 - k.depth) = topics.dropLast := by
        rw [List.dropLast_eq_take]
        congr 1
        omega
      rw [hdrop] at htake
      exact htake.modify (by omega) (fun _ => rfl) fun _ => htake.lasts

/-- A topic is stopped within the choice's list, or around it. -/
theorem stopping (h : k.Layered below P topics cursors) :
    if upToTopic topics = [] then (Session.stopping cursors).length < k.depth
    else k.Layered below P (upToTopic topics) (Session.stopping cursors) := by
  let inTopic (c : Cursor) : Bool := c.topic.isNone
  obtain ⟨layer, own, rfl, rfl, hnone, hP⟩ := h.split
  have hdepth := h.depth
  have hpos := List.length_pos_iff.mpr h.ne_nil
  let within := own.reverse.dropWhile inTopic
  have htopics : upToTopic (own.map (·.topic.isSome)) = within.reverse.map (·.topic.isSome) := by
    rw [upToTopic, ← List.map_reverse, List.dropWhile_map, List.map_reverse]
    congr 3
    funext c
    simp [inTopic]
  have hkept : (below ++ layer :: own).reverse.dropWhile inTopic =
      if within.isEmpty then below.reverse.dropWhile inTopic else within ++ layer :: below.reverse := by
    have hreverse : (below ++ layer :: own).reverse = own.reverse ++ layer :: below.reverse := by simp
    rw [hreverse, List.dropWhile_append, List.dropWhile_cons_of_pos (by simp [inTopic, hnone])]
  have hleave : (Lane.mk (below ++ layer :: own) true 0).leaveToTopic.cursors =
      if ((below ++ layer :: own).reverse.dropWhile inTopic).isEmpty then (below ++ layer :: own).take 1
      else ((below ++ layer :: own).reverse.dropWhile inTopic).reverse := Lane.leaveToTopic_eq _
  have hstop : Session.stopping (below ++ layer :: own) =
      (Lane.mk (below ++ layer :: own) true 0).leaveToTopic.cursors.modify
        ((Lane.mk (below ++ layer :: own) true 0).leaveToTopic.cursors.length - 1) Cursor.forwardLast := rfl
  rw [hstop, htopics]
  generalize (Lane.mk (below ++ layer :: own) true 0).leaveToTopic.cursors = left at hleave
  by_cases hwithin : within = []
  · -- The choice's list is left too, as it belongs to no topic itself.
    have hout : (below.reverse.dropWhile inTopic).length ≤ below.length := by
      simpa using (List.dropWhile_suffix (l := below.reverse) inTopic).length_le
    have hshort : left.length < k.depth := by
      rw [hleave, hkept, hwithin, List.isEmpty_nil, if_pos rfl]
      split
      · rw [List.length_take]
        omega
      · rw [List.length_reverse]
        omega
    simpa [hwithin] using hshort
  · have hempty : within.isEmpty = false := by simpa using hwithin
    have hleft : left = below ++ layer :: within.reverse := by
      rw [hleave, hkept, hempty]
      simp
    have hlayered : k.Layered below P (within.reverse.map (·.topic.isSome)) left :=
      ⟨hdepth, h.ne_nil, h.lasts, layer, within.reverse, hleft, rfl, hnone, hP⟩
    have hlength := hlayered.length_eq
    have hsome := List.length_pos_iff.mpr hwithin
    rw [List.length_map, List.length_reverse] at hlength
    rw [if_neg (by simpa using hwithin)]
    exact hlayered.modify (by omega) (fun _ => rfl) fun hn => absurd hn (by omega)

end Layered

/-! ### Reading the log -/

/-- What has been read of the log agrees with the cursors of the lane. Once the choice's list is left, nothing is known but
    that no list plays over and over at its place. -/
def Agrees (k : Choice) (below : List Cursor) (P : Cursor → Prop) (cursors : List Cursor) : Option Inside → Prop
  | some inside => k.Layered below P inside.topics cursors
  | none => ∀ cur, cursors[k.depth - 1]? = some cur → cur.looping = false

variable {k : Choice} {inside : Inside} {below cursors : List Cursor} {P : Cursor → Prop}

theorem agrees_none (h : cursors.length < k.depth) : k.Agrees below P cursors none := by
  intro cur hcur
  rw [List.getElem?_eq_none (by omega)] at hcur
  cases hcur

/-- What happens on another lane is not read. -/
theorem read_of_other {e : Event} {id : LaneId} (hid : id ≠ k.lane) (h : e.IsAbout id) : k.read inside e = some inside := by
  unfold read
  rcases h with hsome | ⟨hnone, hgoes⟩
  · have hne : e.lane? ≠ some k.lane := fun heq => hid (Option.some.inj (hsome.symm.trans heq))
    have hgoes : e ≠ .rewound := by
      rintro rfl
      cases hsome
    rw [if_neg hne, if_neg hgoes]
  · have hne : e.lane? ≠ some k.lane := by simp [hnone]
    rw [if_neg hne, if_neg hgoes]

theorem foldlM_read_of_other {log : List Event} {id : LaneId} (hid : id ≠ k.lane) (h : ∀ e ∈ log, e.IsAbout id) :
    log.foldlM k.read inside = some inside := by
  induction log with
  | nil => rfl
  | cons e log ih =>
    rw [List.foldlM_cons, read_of_other hid (h e List.mem_cons_self)]
    exact ih fun e he => h e (List.mem_cons_of_mem _ he)

theorem read_dispatched {ref : ActionRef} {label : String} (hconversation : label ≠ "stop_conversation")
    (htopic : label ≠ "stop_topic") :
    k.read inside (.dispatched k.lane ref label) = some { inside with calling := label == "snippet" } := by
  simp [read, Event.lane?, hconversation, htopic]

theorem read_entered {list : ListRef} :
    k.read inside (.entered k.lane list) = some { inside with topics := inside.topics ++ [inside.calling] } := by
  simp [read, Event.lane?]

/-- An action enters a list within the choice's. -/
theorem Layered.enters (h : k.Layered below P inside.topics cursors) (ref : ActionRef) (label : String) (cur : Cursor)
    (hconversation : label ≠ "stop_conversation") (htopic : label ≠ "stop_topic")
    (hcalls : cur.topic.isSome = (label == "snippet")) :
    ∃ inside', [Event.dispatched k.lane ref label, .entered k.lane cur.list].foldlM k.read inside = some inside' ∧
      k.Layered below P inside'.topics (cursors ++ [cur]) := by
  refine ⟨⟨inside.topics ++ [label == "snippet"], label == "snippet"⟩, ?_, hcalls ▸ h.push cur⟩
  rw [List.foldlM_cons, read_dispatched hconversation htopic, Option.bind_eq_bind, Option.bind_some, List.foldlM_cons,
    read_entered]
  rfl

theorem Layered.agrees_advance (h : k.Layered below P inside.topics cursors) :
    k.Agrees below P (Lane.mk cursors true 0).advance.1.cursors
      ((Session.leaving k.lane cursors).foldlM k.read inside) := by
  unfold Session.leaving
  rcases h.advance with ⟨hstays, hlayered⟩ | ⟨hleaves, hlayered⟩
  · rw [hstays]
    exact hlayered
  · rw [hleaves]
    by_cases htopics : inside.topics = []
    · rw [if_pos htopics] at hlayered
      have hread : [Event.left k.lane].foldlM k.read inside = none := by simp [read, Event.lane?, htopics]
      exact hread ▸ agrees_none hlayered
    · rw [if_neg htopics] at hlayered
      have hread :
          [Event.left k.lane].foldlM k.read inside = some { inside with topics := inside.topics.dropLast } := by
        simp [read, Event.lane?, htopics]
      exact hread ▸ hlayered

theorem read_unwound {e : Event} {d : Nat} (he : e = .loopEnded k.lane d ∨ e = .loopCancelled k.lane d) :
    k.read inside e = if d < k.depth then none else some { topics := inside.topics.take (d + 1 - k.depth) } := by
  rcases he with rfl | rfl <;> exact if_pos rfl

/-- A loop is over, which is within the choice's list or around it. -/
theorem Layered.agrees_unwound {e : Event} {d : Nat} {f : Cursor → Cursor} (h : k.Layered below P inside.topics cursors)
    (he : e = .loopEnded k.lane d ∨ e = .loopCancelled k.lane d) (htopic : ∀ c, (f c).topic = c.topic)
    (hloop : ∀ c, (f c).looping = false) :
    k.Agrees below P ((cursors.take (d + 1)).modify d f) (k.read inside e) := by
  rw [read_unwound he]
  split
  · intro cur hcur
    rw [List.getElem?_modify] at hcur
    obtain ⟨old, hold, rfl⟩ := Option.map_eq_some_iff.mp hcur
    split
    · exact hloop old
    · have hlt := (List.getElem?_eq_some_iff.mp hold).1
      rw [List.length_take] at hlt
      omega
  · exact h.unwound (by omega) htopic

end Choice

namespace Session
variable {s t : Session} {id : LaneId} {k : Choice} {inside : Choice.Inside} {below cursors : List Cursor}
variable {P : Cursor → Prop}

/-- What has been read of the log agrees with the session. -/
def Tells (s : Session) (k : Choice) (below : List Cursor) (P : Cursor → Prop) : Option Choice.Inside → Prop
  | some inside => ∃ cursors, s.cursors? k.lane = some cursors ∧ k.Layered below P inside.topics cursors
  | none => ¬s.Waits k

theorem tells_of_agrees {inside? : Option Choice.Inside} (hlane : s.cursors? k.lane = some cursors)
    (h : k.Agrees below P cursors inside?) : s.Tells k below P inside? := by
  cases inside? with
  | some inside => exact ⟨cursors, hlane, h⟩
  | none =>
    rintro ⟨cursors', cur, hlane', hcur, hloop, -⟩
    obtain rfl := Option.some.inj (hlane.symm.trans hlane')
    rw [h cur hcur] at hloop
    cases hloop

theorem Effect.tells {now : Option (List Cursor)} {log : List Event} (h : Effect id now log s t)
    (hlog : ∀ e ∈ log, e.IsAbout id) (hlane : s.cursors? k.lane = some cursors)
    (hlayered : k.Layered below P inside.topics cursors)
    (hown : id = k.lane → t.Tells k below P (log.foldlM k.read inside)) :
    t.Tells k below P (log.foldlM k.read inside) := by
  by_cases hid : id = k.lane
  · exact hown hid
  · rw [Choice.foldlM_read_of_other hid hlog]
    exact ⟨cursors, (h.others k.lane (Ne.symm hid)).trans hlane, hlayered⟩

/-- What is read of a turn within the choice's list. -/
theorem Turn.tells (h : Turn id s t) (hs : s.Sound) (hlane : s.cursors? k.lane = some cursors)
    (hlayered : k.Layered below P inside.topics cursors) :
    ∃ log, t.events.toList = s.events.toList ++ log ∧ t.Tells k below P (log.foldlM k.read inside) := by
  by_cases hid : id = k.lane
  case neg =>
    obtain ⟨now, log, heffect, hlog⟩ := h.about
    exact ⟨log, heffect.log, heffect.tells hlog hlane hlayered fun heq => absurd heq hid⟩
  subst hid
  have hdepth := hlayered.depth
  have hpos := List.length_pos_iff.mpr hlayered.ne_nil
  have hlength := hlayered.length_eq
  cases h with
  | calm h | refused h | actorRemoved h | ended _ h => exact ⟨_, h.log, cursors, h.lane.trans hlane, hlayered⟩
  | rooted hmain hempty h =>
    have hnone : cursors = [] := by
      rw [hmain] at hlane
      exact (Option.some.inj hlane).symm.trans hempty
    rw [hnone, List.length_nil] at hlength
    omega
  | closed hlane' _ h =>
    obtain rfl := Option.some.inj (hlane.symm.trans hlane')
    refine ⟨_, h.log, tells_of_agrees h.lane ?_⟩
    simp only [List.foldlM_cons, List.foldlM_nil, bind_pure]
    exact hlayered.agrees_unwound (.inl rfl) (fun _ => rfl) fun _ => rfl
  | noted hat hplain h =>
    obtain rfl := Option.some.inj (hlane.symm.trans hat.lane)
    obtain ⟨-, hconversation, htopic⟩ := Action.label_of_plain hplain
    refine ⟨_, h.log, ?_⟩
    rw [List.foldlM_cons, Choice.read_dispatched hconversation htopic]
    exact ⟨_, h.lane, hlayered⟩
  | moved hlane' _ h =>
    obtain rfl := Option.some.inj (hlane.symm.trans hlane')
    exact ⟨_, h.log, tells_of_agrees h.lane hlayered.agrees_advance⟩
  | entered hat hplain _ hcalls _ h =>
    obtain rfl := Option.some.inj (hlane.symm.trans hat.lane)
    obtain ⟨-, hconversation, htopic⟩ := Action.label_of_plain hplain
    obtain ⟨inside', hread, hlayered'⟩ := hlayered.enters _ _ _ hconversation htopic hcalls
    exact ⟨_, h.log, hread ▸ ⟨_, h.lane, hlayered'⟩⟩
  | @asked k' _ a cur hid h =>
    obtain ⟨_, _, _, hkind, -⟩ := h.kind
    have hlabel := Action.label_of_choice hkind
    obtain rfl := Option.some.inj (hlane.symm.trans (hid ▸ h.at_.lane))
    obtain ⟨inside', hread, hlayered'⟩ := hlayered.enters k'.action a.label cur (by simp [hlabel]) (by simp [hlabel])
      (by simp [hlabel, h.topic])
    have heffect := h.effect
    rw [hid] at heffect
    exact ⟨_, heffect.log, hread ▸ ⟨_, heffect.lane, hlayered'⟩⟩
  | @skipped _ ref a cur h =>
    obtain ⟨_, _, _, hkind, -⟩ := h.kind
    have hlabel := Action.label_of_choice hkind
    obtain rfl := Option.some.inj (hlane.symm.trans h.at_.lane)
    obtain ⟨inside', hread, hlayered'⟩ := hlayered.enters ref a.label cur (by simp [hlabel]) (by simp [hlabel])
      (by simp [hlabel, h.topic])
    refine ⟨_, h.effect.log, tells_of_agrees h.effect.lane ?_⟩
    show k.Agrees below P _ (([Event.dispatched k.lane ref a.label, .entered k.lane cur.list] ++
      leaving k.lane (cursors ++ [cur])).foldlM k.read inside)
    rw [List.foldlM_append, hread]
    exact hlayered'.agrees_advance
  | held hat _ _ _ h =>
    obtain rfl := Option.some.inj (hlane.symm.trans hat.lane)
    exact ⟨_, h.log, _, h.lane, hlayered⟩
  | @stopped _ _ a hat hkind h =>
    have hlabel : a.label = "stop_conversation" := by rw [Action.label, hkind]; rfl
    refine ⟨_, h.log, tells_of_agrees h.lane ?_⟩
    simp only [hlabel, List.foldlM_cons, Choice.read, Event.lane?, ↓reduceIte]
    refine Choice.agrees_none ?_
    simp only [Lane.changeTop, Lane.changeAt, Lane.truncate, List.length_modify, List.length_take]
    omega
  | @topicStopped _ ref a hat hkind h =>
    have hlabel : a.label = "stop_topic" := by rw [Action.label, hkind]; rfl
    obtain rfl := Option.some.inj (hlane.symm.trans hat.lane)
    refine ⟨_, h.log, tells_of_agrees h.lane ?_⟩
    have hread : k.read inside (.dispatched k.lane ref a.label) =
        if Choice.upToTopic inside.topics = [] then none
        else some { inside with topics := Choice.upToTopic inside.topics } := by
      simp [hlabel, Choice.read, Event.lane?]
    have hstop := hlayered.stopping
    rw [List.foldlM_cons, hread]
    split at hstop
    · rename_i hleft
      rw [if_pos hleft]
      exact Choice.agrees_none (Nat.lt_of_le_of_lt Lane.length_advance_le hstop)
    · rename_i hkept
      rw [if_neg hkept]
      have hlayered' : k.Layered below P ({ inside with topics := Choice.upToTopic inside.topics } : Choice.Inside).topics
          (stopping cursors) := hstop
      exact hlayered'.agrees_advance
  | added hid _ h =>
    rw [hid, cursors?, lane?, hs.numbered.lookup_nextSide] at hlane
    cases hlane
  | removed hid hshort h =>
    have hle := hshort cursors hlane
    omega

/-- What is read of an answer on the same lane, which is one to another choice unless the list of this one is left. -/
theorem Answers.tells {d o : Nat} {inner : Option Cursor}
    (h : Answers k.lane ((released cursors d).modify d Cursor.forwardEnd) inner [.loopCancelled k.lane d, .selected o] s t)
    (hlayered : k.Layered below P inside.topics cursors) :
    t.Tells k below P (([Event.loopCancelled k.lane d, .selected o] ++ inner.toList.map fun cur =>
      Event.entered k.lane cur.list).foldlM k.read inside) := by
  have hdepth := hlayered.depth
  have hread : k.read inside (.loopCancelled k.lane d) = _ := Choice.read_unwound (.inr rfl)
  rw [List.cons_append, List.foldlM_cons, hread]
  refine tells_of_agrees h.effect.lane ?_
  split
  · exact fun cur hcur => h.straight h.effect.lane (by omega) hcur
  · have hd : k.depth ≤ d := by omega
    have hselected : ∀ inside : Choice.Inside, k.read inside (.selected o) = some inside := fun inside => rfl
    have hleft : k.Layered below P (inside.topics.take (d + 1 - k.depth))
        ((released cursors d).modify d Cursor.forwardEnd) := by
      rw [released, List.modify_modify_eq]
      exact hlayered.unwound hd fun _ => rfl
    rw [Option.bind_eq_bind, Option.bind_some, List.cons_append, List.foldlM_cons, hselected]
    cases inner with
    | none => simpa [Choice.Agrees] using hleft
    | some cur =>
      have hpush := hleft.push cur
      rw [(h.plain cur rfl).2] at hpush
      simpa [Choice.Agrees, Choice.read_entered] using hpush

theorem Move.tells (h : Move s t) (hs : s.Sound) (hlane : s.cursors? k.lane = some cursors)
    (hlayered : k.Layered below P inside.topics cursors) :
    ∃ log, t.events.toList = s.events.toList ++ log ∧ t.Tells k below P (log.foldlM k.read inside) := by
  cases h with
  | turn h => exact h.tells hs hlane hlayered
  | set h | dismissed _ _ h =>
    refine ⟨_, h.log, h.tells nofun hlane hlayered fun hid => ?_⟩
    rw [← hid] at hlane
    exact ⟨cursors, hid ▸ h.lane.trans hlane, hlayered⟩
  | advanced hlane' h =>
    refine ⟨_, h.log, h.tells (fun e he => isAbout_leaving he) hlane hlayered fun hid => ?_⟩
    rw [hid] at hlane' h ⊢
    obtain rfl := Option.some.inj (hlane.symm.trans hlane')
    exact tells_of_agrees h.lane hlayered.agrees_advance
  | cancelled hlane' _ h =>
    refine ⟨_, h.log, h.tells (by simp [Event.IsAbout, Event.lane?]) hlane hlayered fun hid => ?_⟩
    rw [hid] at hlane' h ⊢
    obtain rfl := Option.some.inj (hlane.symm.trans hlane')
    refine tells_of_agrees h.lane ?_
    simp only [List.foldlM_cons, List.foldlM_nil, bind_pure]
    exact hlayered.agrees_unwound (.inr rfl) (fun _ => rfl) fun _ => rfl
  | @answered k' _ _ _ _ hlane' _ h =>
    refine ⟨_, h.effect.log, h.effect.tells (by simp [Event.IsAbout, Event.lane?]) hlane hlayered fun hid => ?_⟩
    rw [hid] at hlane' h ⊢
    obtain rfl := Option.some.inj (hlane.symm.trans hlane')
    exact h.tells hlayered
  | rewound _ _ hfresh hsides hlog =>
    refine ⟨_, hlog, ?_⟩
    rintro ⟨cursors', cur, hlane', hcur, hloop, -⟩
    rw [looping_of_fresh hfresh hsides hlane' hcur] at hloop
    cases hloop

/-- A list that plays over and over where an action could have entered it does not come back unless the action is carried
    out again. -/
theorem Move.gone {log : List Event} (h : Move s t) (hlog : t.events.toList = s.events.toList ++ log)
    (hnot : ∀ a, s.action? k.action = some a → .dispatched k.lane k.action a.label ∉ log) (hgone : ¬s.Waits k) :
    ¬t.Waits k := by
  rintro ⟨cursors, cur, hlane, hcur, hloop, hparent⟩
  cases h.origin hlane hcur hloop with
  | kept hlane' hold hloop' hparent' => exact hgone ⟨_, _, hlane', hold, hloop', hparent'.trans hparent⟩
  | entered hparent' ha _ hlog' hnoted =>
    obtain rfl := Option.some.inj (hparent.symm.trans hparent')
    obtain rfl := List.append_cancel_left (hlog.symm.trans hlog')
    exact hnot _ ha hnoted

/-! ### Runs -/

/-- What the log tells of the list that plays while a choice waits. Once it is left, another one at its place is not
    mistaken for it as long as the choice is not carried out again. -/
theorem Moves.tells (h : Moves s t) (hs : s.Sound) (hlane : s.cursors? k.lane = some cursors)
    (hlayered : k.Layered below P inside.topics cursors) :
    ∃ log, t.events.toList = s.events.toList ++ log ∧
      ((log.foldlM k.read inside).isSome ∨ (∀ label, .dispatched k.lane k.action label ∉ log) →
        t.Tells k below P (log.foldlM k.read inside)) := by
  induction h with
  | refl => exact ⟨[], by simp, fun _ => ⟨cursors, hlane, hlayered⟩⟩
  | tail hmoves hmove ih =>
    obtain ⟨log, hlog, htells⟩ := ih
    cases hread : log.foldlM k.read inside with
    | some inside' =>
      rw [hread] at htells
      obtain ⟨cursors', hlane', hlayered'⟩ := htells (.inl rfl)
      obtain ⟨log', hlog', htells'⟩ := hmove.tells (Moves.sound hmoves hs) hlane' hlayered'
      refine ⟨log ++ log', by rw [hlog', hlog, List.append_assoc], fun _ => ?_⟩
      rw [List.foldlM_append, hread]
      exact htells'
    | none =>
      obtain ⟨log', hlog'⟩ := hmove.log
      refine ⟨log ++ log', by rw [← hlog', hlog, List.append_assoc], fun h => ?_⟩
      rw [List.foldlM_append, hread] at h ⊢
      have hnot := h.resolve_left Bool.false_ne_true
      rw [hread] at htells
      exact hmove.gone hlog'.symm (fun a _ hnoted => hnot a.label (List.mem_append_right _ hnoted))
        (htells (.inr fun label hnoted => hnot label (List.mem_append_left _ hnoted)))

/-- The list that plays while a choice waits plays over and over. -/
def IsMeanwhile (k : Choice) (c : Cursor) : Prop := c.looping = true ∧ c.parent = some k.action

theorem Tells.waits_iff {inside? : Option Choice.Inside} (h : s.Tells k below (IsMeanwhile k) inside?) :
    s.Waits k ↔ inside?.isSome := by
  cases inside? with
  | some inside =>
    obtain ⟨cursors, hlane, hlayered⟩ := h
    obtain ⟨cur, hcur, hloop, hparent⟩ := hlayered.layer
    exact iff_of_true ⟨cursors, cur, hlane, hcur, hloop, hparent⟩ rfl
  | none => exact iff_of_false h nofun

/-- A choice that has just been asked waits. -/
theorem Asks.layered {a : Action ListId} {cur : Cursor} (h : Asks k cursors a cur s t) :
    k.Layered cursors (IsMeanwhile k) ({} : Choice.Inside).topics (cursors ++ [cur]) :=
  ⟨h.depth, h.at_.ne_nil, fun _ hc => hc, cur, [], rfl, rfl, h.topic, h.looping, h.parent⟩

theorem Move.script (h : Move s t) (hk : t.choice = some k) : SameScript s t := by
  cases h with
  | turn h =>
    obtain ⟨_, _, heffect⟩ := h.effect
    exact heffect.script
  | set h | advanced _ h | cancelled _ _ h | dismissed _ _ h => exact h.script
  | answered _ _ _ h => exact h.effect.script
  | rewound _ _ _ _ _ hchoice =>
    rw [hk] at hchoice
    cases hchoice

/-- What the log tells of the choice that the player is asked, from where it has been carried out. -/
structure Tracked (k : Choice) (t : Session) (since : List Event) : Prop where
  log : ∃ before list, t.events.toList =
    before ++ .dispatched k.lane k.action "player_choice" :: .entered k.lane list :: since
  last : ∀ e ∈ since, e.isChoice = false
  asks : ∃ a, t.action? k.action = some a ∧ a.label = "player_choice"
  tells : ∃ below, t.Tells k below (IsMeanwhile k) (since.foldlM k.read {})

theorem Asks.tracked {a : Action ListId} {cur : Cursor} (h : Asks k cursors a cur s t) : Tracked k t [] := by
  obtain ⟨answers, meanwhile, name, hkind, -⟩ := h.kind
  have hlabel := Action.label_of_choice hkind
  have ha : t.action? k.action = some a := by
    rw [h.effect.script.action?]
    exact h.at_.action
  exact ⟨⟨s.events.toList, cur.list, by rw [h.effect.log, hlabel]⟩, by simp, ⟨a, ha, hlabel⟩, cursors, _, h.effect.lane,
    h.layered⟩

theorem Move.tracked (h : Move s t) (hs : s.Sound) (ih : ∀ k, s.choice = some k → ∃ since, Tracked k s since)
    (hk : t.choice = some k) : ∃ since, Tracked k t since := by
  cases h.asking with
  | asked h =>
    obtain rfl := Option.some.inj (h.choice.symm.trans hk)
    exact ⟨[], h.tracked⟩
  | skipped h =>
    rw [h.choice] at hk
    cases hk
  | @silent log hlog hquiet hchoice =>
    rcases hchoice with hsame | ⟨hnone, -⟩
    · obtain ⟨since, ⟨before, list, hsince⟩, hlast, ⟨a, ha, hlabel⟩, below, htells⟩ := ih k (hsame.symm.trans hk)
      have hsame' := (h.script hk).action?
      refine ⟨since ++ log, ⟨before, list, ?_⟩, ?_, ⟨a, hsame' ▸ ha, hlabel⟩, below, ?_⟩
      · rw [hlog, hsince]
        simp
      · intro e he
        exact (List.mem_append.mp he).elim (hlast e) (hquiet e)
      · rw [List.foldlM_append]
        cases hread : since.foldlM k.read {} with
        | some inside =>
          rw [hread] at htells
          obtain ⟨cursors, hlane, hlayered⟩ := htells
          obtain ⟨log', hlog', htells'⟩ := h.tells hs hlane hlayered
          obtain rfl := List.append_cancel_left (hlog.symm.trans hlog')
          exact htells'
        | none =>
          rw [hread] at htells
          refine h.gone hlog (fun a' ha' hnoted => ?_) htells
          obtain rfl := Option.some.inj (ha.symm.trans ha')
          have hquiet' := hquiet _ hnoted
          rw [hlabel] at hquiet'
          cases hquiet'
    · rw [hnone] at hk
      cases hk

/-- The list that plays while the player is asked is still there, unless the log tells since the choice that it has been
    left. -/
theorem waits_iff_inside {c : Conversation} (h : Reachable c t) (hk : t.choice = some k) :
    ∃ before list since, t.events.toList =
        before ++ .dispatched k.lane k.action "player_choice" :: .entered k.lane list :: since ∧
      (∀ e ∈ since, e.isChoice = false) ∧ (t.Waits k ↔ (since.foldlM k.read {}).isSome) := by
  obtain ⟨chance, options, hmoves, -⟩ := h.moves
  suffices htracked : ∀ k, t.choice = some k → ∃ since, Tracked k t since by
    obtain ⟨since, ⟨before, list, hlog⟩, hlast, -, below, htells⟩ := htracked k hk
    exact ⟨before, list, since, hlog, hlast, htells.waits_iff⟩
  clear h hk
  induction hmoves with
  | refl => nofun
  | tail hmoves hmove ih =>
    have hsound := Moves.sound hmoves ⟨⟨chance, rfl⟩, fun n l hmem => nomatch hmem⟩
    exact fun k hk => hmove.tracked hsound ih hk

end Session

/-- A question that does not wait for its answer, and a walk that goes on after it. -/
def Document.walk : Document where
  profiles := []
  values := .empty
  gameCommands := .empty
  files := [{
    id := "tale"
    topics := [
      { id := "walk"
        block := ⟨[
          { kind := .cue (.snippet none "ask" false) },
          { kind := .wait (some (.compareVariable "there" .eq ⟨0, none⟩)) ⟨[
            { kind := .wait (some (.compareVariable "rested" .eq ⟨0, none⟩)) ⟨[
              { kind := .cue (.comment "rest") }]⟩ }]⟩ }]⟩ },
      { id := "ask"
        block := ⟨[{ kind := .choice [⟨"left", none, ⟨[]⟩⟩] ⟨[{ kind := .cue .stopTopic }]⟩ none }]⟩ }] }]

theorem waits_iff_inside_walk :
    ∃ c t k, Document.walk.load = .ok c ∧ Session.Reachable c t ∧ t.choice = some k ∧
      ∃ before list since, t.events.toList =
          before ++ .dispatched k.lane k.action "player_choice" :: .entered k.lane list :: since ∧
        (∀ e ∈ since, e.isChoice = false) ∧ (t.Waits k ↔ (since.foldlM k.read {}).isSome) := by
  have hplayed : ∃ c, Document.walk.load = .ok c ∧
      ((Session.start c (.scripted .zeros) {}).steps
        [.setTopic (some ⟨0⟩), .setRunning true, .update 1, .update 1]).any fun t => t.choice.isSome :=
    ⟨_, rfl, by decide +kernel⟩
  obtain ⟨c, t, hc, hreachable, hsome⟩ := Session.exists_reachable (by simp [Session.Op.Plays]) hplayed
  obtain ⟨k, hk⟩ := Option.isSome_iff_exists.mp hsome
  exact ⟨c, t, k, hc, hreachable, hk, Session.waits_iff_inside hreachable hk⟩

/-- The topic of the question is stopped, but the player is still asked. The answer ends a loop that has been entered
    since where the list of the question has been. -/
theorem choice_outlives_list_walk :
    ∃ c t k, Document.walk.load = .ok c ∧ Session.Reachable c t ∧ t.choice = some k ∧ ¬t.Waits k ∧
      ∃ ref, ref ≠ k.action ∧ t.Loops k.lane (k.depth - 1) ref ∧ ¬(t.select 0).1.Loops k.lane (k.depth - 1) ref := by
  have hplayed : ∃ c, Document.walk.load = .ok c ∧
      ((Session.start c (.scripted .zeros) {}).steps
        [.setTopic (some ⟨0⟩), .setRunning true, .update 1, .update 1, .update 1, .update 1, .update 1]).any fun t =>
        t.choice.any fun k => decide (¬t.Waits k) && decide ((⟨.script ⟨1⟩, 0⟩ : ActionRef) ≠ k.action) &&
          decide (t.Loops k.lane (k.depth - 1) ⟨.script ⟨1⟩, 0⟩) &&
          decide (¬(t.select 0).1.Loops k.lane (k.depth - 1) ⟨.script ⟨1⟩, 0⟩) :=
    ⟨_, rfl, by decide +kernel⟩
  obtain ⟨c, t, hc, hreachable, hasks⟩ := Session.exists_reachable (by simp [Session.Op.Plays]) hplayed
  obtain ⟨k, hk, hall⟩ := (Option.any_eq_true _ _).mp hasks
  simp only [Bool.and_eq_true, decide_eq_true_eq, and_assoc] at hall
  obtain ⟨hgone, hother, hloop, hended⟩ := hall
  exact ⟨c, t, k, hc, hreachable, hk, hgone, _, hother, hloop, hended⟩

end Dialogue

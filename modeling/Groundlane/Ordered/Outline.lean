import Mathlib.Data.List.Induction
import Mathlib.Order.Basic
import Mathlib.Order.Lattice

/-!
# Outlines

A forest that is grown one label at a time, where a label goes below the last label of a smaller
level on the rightmost path. In preorder the labels stand in the order in which they came
(`preorder_outline`), levels increase from a label to its children (`deepens_outline`), and the
parent of a label is the nearest label before it that has a smaller level (`parents_outline`).
Every forest with such levels grows from its own preorder alone (`outline_eq_iff`).
-/

namespace Outline

/-- A list of trees: the label of the first one, its children, and the trees behind it. -/
inductive Forest (α : Type) where
  | empty
  | tree (label : α) (children rest : Forest α)

namespace Forest

variable {α : Type}

/-- The labels of the roots. -/
def roots : Forest α → List α
  | empty => []
  | tree a _ rest => a :: rest.roots

/-- The labels, each before those below it. -/
def preorder : Forest α → List α
  | empty => []
  | tree a children rest => a :: (children.preorder ++ rest.preorder)

/-- The places of the labels' parents in the preorder, where `parent` is the place of the roots'
parent and `place` the one of the first root. -/
def parents (parent : Option Nat) (place : Nat) : Forest α → List (Option Nat)
  | empty => []
  | tree _ children rest =>
    parent :: (parents (some place) (place + 1) children ++
      parents parent (place + 1 + children.preorder.length) rest)

@[simp] theorem preorder_tree (a : α) (children rest : Forest α) :
    (tree a children rest).preorder = a :: (children.preorder ++ rest.preorder) := rfl

theorem roots_subset_preorder (forest : Forest α) {a : α} (ha : a ∈ forest.roots) :
    a ∈ forest.preorder := by
  induction forest with
  | empty => exact ha
  | tree b children rest _ ih =>
    rcases List.mem_cons.1 ha with rfl | ha
    · exact List.mem_cons_self
    · exact List.mem_cons_of_mem _ (List.mem_append_right _ (ih ha))

@[simp] theorem length_parents (forest : Forest α) (parent : Option Nat) (place : Nat) :
    (forest.parents parent place).length = forest.preorder.length := by
  induction forest generalizing parent place with
  | empty => rfl
  | tree b children rest ihc ihr => simp [parents, ihc, ihr]

variable {ι : Type} [LinearOrder ι] (level : α → ι)

/-- Levels increase from a label to its children. -/
def Deepens : Forest α → Prop
  | empty => True
  | tree a children rest =>
    (∀ c ∈ children.roots, level a < level c) ∧ children.Deepens ∧ rest.Deepens

/-- Levels do not increase from a label to its next sibling. -/
def Falls : Forest α → Prop
  | empty => True
  | tree a children rest => (∀ b ∈ rest.roots, level b ≤ level a) ∧ children.Falls ∧ rest.Falls

/-- `a` goes below the last label of the rightmost path that has a smaller level. -/
def insert (a : α) : Forest α → Forest α
  | empty => tree a empty empty
  | tree b children empty =>
    if level b < level a then tree b (insert a children) empty
    else tree b children (tree a empty empty)
  | tree b children (tree c grandchildren rest) =>
    tree b children (insert a (tree c grandchildren rest))

/-- The forest that grows from a list of labels. -/
def outline (labels : List α) : Forest α :=
  labels.foldl (fun forest a => forest.insert level a) empty

@[simp] theorem outline_concat (labels : List α) (a : α) :
    outline level (labels ++ [a]) = (outline level labels).insert level a := by
  simp [outline]

/-! ## The preorder -/

@[simp] theorem preorder_insert (a : α) (forest : Forest α) :
    (forest.insert level a).preorder = forest.preorder ++ [a] := by
  fun_induction insert level a forest with
  | case1 => rfl
  | case2 b children hba ih => simp [ih, preorder]
  | case3 b children hba => simp [preorder]
  | case4 b children c grandchildren rest ih => simp [ih]

/-- In preorder the labels stand as they came. -/
theorem preorder_outline (labels : List α) : (outline level labels).preorder = labels := by
  induction labels using List.reverseRecOn with
  | nil => rfl
  | append_singleton labels a ih => rw [outline_concat, preorder_insert, ih]

/-! ## The levels -/

variable {level} {forest : Forest α}

/-- The new label is a root, or the roots stay. -/
theorem mem_roots_insert {a b : α} (hb : b ∈ (forest.insert level a).roots) :
    b = a ∨ b ∈ forest.roots := by
  fun_induction insert level a forest with
  | case1 => exact .inl (by simpa [roots] using hb)
  | case2 c children hca ih => exact .inr hb
  | case3 c children hca =>
    rcases List.mem_cons.1 hb with rfl | hb
    · exact .inr List.mem_cons_self
    · exact .inl (by simpa [roots] using hb)
  | case4 c children d grandchildren rest ih =>
    rcases List.mem_cons.1 hb with rfl | hb
    · exact .inr List.mem_cons_self
    · exact (ih hb).imp id (List.mem_cons_of_mem _)

theorem deepens_insert (h : forest.Deepens level) (a : α) :
    (forest.insert level a).Deepens level := by
  fun_induction insert level a forest with
  | case1 => exact ⟨by simp [roots], trivial, trivial⟩
  | case2 b children hba ih =>
    obtain ⟨hroots, hchildren, -⟩ := h
    refine ⟨fun c hc => ?_, ih hchildren, trivial⟩
    rcases mem_roots_insert hc with rfl | hc
    · exact hba
    · exact hroots c hc
  | case3 b children hba => exact ⟨h.1, h.2.1, by simp [roots], trivial, trivial⟩
  | case4 b children c grandchildren rest ih => exact ⟨h.1, h.2.1, ih h.2.2⟩

/-- No root gets a smaller level than the first one. -/
theorem roots_insert_le {a b : α} {children rest : Forest α}
    (h : (tree b children rest).Falls level) :
    ∀ c ∈ ((tree b children rest).insert level a).roots, level c ≤ level b := by
  induction rest generalizing b children with
  | empty =>
    intro c hc
    unfold insert at hc
    split at hc
    · simp only [roots, List.mem_singleton] at hc
      exact hc ▸ le_rfl
    · next hba =>
        simp only [roots, List.mem_cons, List.not_mem_nil, or_false] at hc
        rcases hc with rfl | rfl
        · exact le_rfl
        · exact not_lt.1 hba
  | tree d grandchildren rest _ ih =>
    intro c hc
    rcases List.mem_cons.1 hc with rfl | hc
    · exact le_rfl
    · exact (ih h.2.2 c hc).trans (h.1 d List.mem_cons_self)

theorem falls_insert (h : forest.Falls level) (a : α) : (forest.insert level a).Falls level := by
  fun_induction insert level a forest with
  | case1 => exact ⟨by simp [roots], trivial, trivial⟩
  | case2 b children hba ih => exact ⟨h.1, ih h.2.1, trivial⟩
  | case3 b children hba =>
    refine ⟨fun c hc => ?_, h.2.1, by simp [roots], trivial, trivial⟩
    obtain rfl : c = a := by simpa [roots] using hc
    exact not_lt.1 hba
  | case4 b children c grandchildren rest ih =>
    refine ⟨fun d hd => ?_, h.2.1, ih h.2.2⟩
    exact (roots_insert_le h.2.2 d hd).trans (h.1 c List.mem_cons_self)

/-- Where a new label becomes a root, no label is less deep than it. -/
theorem le_preorder (h : forest.Deepens level) {n : ι} (hroots : ∀ c ∈ forest.roots, n ≤ level c) :
    ∀ c ∈ forest.preorder, n ≤ level c := by
  induction forest with
  | empty => exact hroots
  | tree b children rest ihc ihr =>
    have hb : n ≤ level b := hroots b List.mem_cons_self
    intro c hc
    rcases List.mem_cons.1 hc with rfl | hc
    · exact hb
    · rcases List.mem_append.1 hc with hc | hc
      · exact ihc h.2.1 (fun d hd => hb.trans (h.1 d hd).le) c hc
      · exact ihr h.2.2 (fun d hd => hroots d (List.mem_cons_of_mem _ hd)) c hc

variable (level) in
/-- Levels increase in the forest that grows from a list. -/
theorem deepens_outline (labels : List α) : (outline level labels).Deepens level := by
  induction labels using List.reverseRecOn with
  | nil => trivial
  | append_singleton labels a ih => exact outline_concat level labels a ▸ deepens_insert ih a

variable (level) in
/-- Levels do not increase among siblings in it. -/
theorem falls_outline (labels : List α) : (outline level labels).Falls level := by
  induction labels using List.reverseRecOn with
  | nil => trivial
  | append_singleton labels a ih => exact outline_concat level labels a ▸ falls_insert ih a

/-! ## The parents -/

variable (level) in
/-- `parent` is the place of the last of the labels that has a smaller level than `a`. -/
def Nearest (labels : List α) (a : α) (parent : Option Nat) : Prop :=
  match parent with
  | none => ∀ b ∈ labels, level a ≤ level b
  | some place =>
    (∃ b, labels[place]? = some b ∧ level b < level a) ∧
      ∀ b ∈ labels.drop (place + 1), level a ≤ level b

/-- A nearest label that is found stays when labels are put before the list. -/
theorem Nearest.append_left {labels : List α} {a : α} {found : Nat}
    (h : Nearest level labels a (some found)) (before : List α) :
    Nearest level (before ++ labels) a (some (before.length + found)) := by
  obtain ⟨⟨b, hb, hba⟩, hbehind⟩ := h
  refine ⟨⟨b, ?_, hba⟩, ?_⟩
  · rw [List.getElem?_append_right (Nat.le_add_right ..), Nat.add_sub_cancel_left, hb]
  · rw [Nat.add_assoc, List.drop_append, List.drop_of_length_le (Nat.le_add_right ..),
      Nat.add_sub_cancel_left]
    exact hbehind

/-- The place of the new label's parent among the labels of the forest. -/
theorem parents_insert (hdeep : forest.Deepens level) (hfall : forest.Falls level) (a : α) :
    ∃ nearest, Nearest level forest.preorder a nearest ∧ ∀ parent place,
      (forest.insert level a).parents parent place =
        forest.parents parent place ++ [(nearest.map (place + ·)).or parent] := by
  fun_induction insert level a forest with
  | case1 => exact ⟨none, by simp [Nearest, preorder], fun _ _ => rfl⟩
  | case2 b children hba ih =>
    obtain ⟨nearest, hnearest, hparents⟩ := ih hdeep.2.1 hfall.2.1
    cases nearest with
    | none =>
      -- No label below `b` is smaller, so `b` itself is the parent.
      refine ⟨some 0, ⟨⟨b, rfl, hba⟩, ?_⟩, fun parent place => ?_⟩
      · simpa [preorder, Nearest] using hnearest
      · simp [parents, hparents]
    | some found =>
      refine ⟨some (1 + found), ?_, fun parent place => ?_⟩
      · simpa [preorder] using hnearest.append_left [b]
      · simp [parents, hparents, Nat.add_assoc]
  | case3 b children hba =>
    refine ⟨none, le_preorder hdeep ?_, fun parent place => by simp [parents]⟩
    intro c hc
    simp only [roots, List.mem_singleton] at hc
    exact hc ▸ not_lt.1 hba
  | case4 b children c grandchildren rest ih =>
    obtain ⟨nearest, hnearest, hparents⟩ := ih hdeep.2.2 hfall.2.2
    cases nearest with
    | none =>
      have hca : level a ≤ level c := hnearest c List.mem_cons_self
      refine ⟨none, le_preorder hdeep ?_, fun parent place => ?_⟩
      · -- The siblings behind `b` are not smaller than `a`, hence `b` is not.
        intro d hd
        rcases List.mem_cons.1 hd with rfl | hd
        · exact hca.trans (hfall.1 c List.mem_cons_self)
        · exact hnearest d (roots_subset_preorder _ hd)
      · rw [parents, hparents]
        simp [parents]
    | some found =>
      refine ⟨some (1 + children.preorder.length + found), ?_, fun parent place => ?_⟩
      · simpa [preorder, Nat.add_comm, Nat.add_left_comm] using
          hnearest.append_left (b :: children.preorder)
      · rw [parents, hparents]
        simp [parents, Nat.add_assoc]

/-- The parent of each label is the nearest label before it that has a smaller level. -/
theorem parents_outline {labels : List α} {place : Nat} {a : α} (ha : labels[place]? = some a) :
    ∃ parent, ((outline level labels).parents none 0)[place]? = some parent ∧
      Nearest level (labels.take place) a parent := by
  induction labels using List.reverseRecOn with
  | nil => simp at ha
  | append_singleton labels b ih =>
    obtain ⟨nearest, hnearest, hparents⟩ :=
      parents_insert (deepens_outline level labels) (falls_outline level labels) b
    rw [preorder_outline] at hnearest
    have hlength : ((outline level labels).parents none 0).length = labels.length := by
      rw [length_parents, preorder_outline]
    rw [outline_concat, hparents]
    rcases Nat.lt_or_ge place labels.length with hlt | hge
    · rw [List.getElem?_append_left hlt] at ha
      rw [List.getElem?_append_left (by omega), List.take_append_of_le_length (by omega)]
      exact ih ha
    · have hplace : place = labels.length := by
        have := (List.getElem?_eq_some_iff.1 ha).1
        simp only [List.length_append, List.length_singleton] at this
        omega
      subst hplace
      obtain rfl : b = a := by simpa using ha
      refine ⟨nearest, ?_, by simpa using hnearest⟩
      rw [List.getElem?_append_right (by omega), hlength, Nat.sub_self]
      cases nearest <;> simp

/-! ## Which forests grow -/

/-- What lies below a root is deeper than what the roots are deeper than. -/
theorem lt_preorder {n : ι} (h : forest.Deepens level) (hroots : ∀ c ∈ forest.roots, n < level c) :
    ∀ c ∈ forest.preorder, n < level c := by
  induction forest with
  | empty => exact hroots
  | tree b children rest ihc ihr =>
    have hb : n < level b := hroots b List.mem_cons_self
    intro c hc
    rcases List.mem_cons.1 hc with rfl | hc
    · exact hb
    · rcases List.mem_append.1 hc with hc | hc
      · exact ihc h.2.1 (fun d hd => hb.trans (h.1 d hd)) c hc
      · exact ihr h.2.2 (fun d hd => hroots d (List.mem_cons_of_mem _ hd)) c hc

/-- Behind a root, its descendants are the labels up to the first one that is not deeper. -/
theorem takeWhile_deeper {a : α} {children rest : Forest α}
    (hdeep : (tree a children rest).Deepens level) (hfall : (tree a children rest).Falls level) :
    (children.preorder ++ rest.preorder).takeWhile (level a < level ·) = children.preorder := by
  rw [List.takeWhile_append_of_pos
    fun c hc => decide_eq_true (lt_preorder hdeep.2.1 hdeep.1 c hc)]
  cases rest with
  | empty => simp [preorder]
  | tree b grandchildren behind =>
    have hb : ¬ level a < level b := not_lt.2 (hfall.1 b List.mem_cons_self)
    simp [hb]

/-- Such forests are told apart by their preorders. -/
theorem eq_of_preorder {other : Forest α} (hdeep : forest.Deepens level)
    (hfall : forest.Falls level) (hdeep' : other.Deepens level) (hfall' : other.Falls level)
    (h : forest.preorder = other.preorder) : forest = other := by
  induction forest generalizing other with
  | empty =>
    cases other with
    | empty => rfl
    | tree => cases h
  | tree a children rest ihc ihr =>
    cases other with
    | empty => cases h
    | tree b children' rest' =>
      simp only [preorder_tree, List.cons.injEq] at h
      obtain ⟨rfl, h⟩ := h
      have hchildren : children.preorder = children'.preorder := by
        rw [← takeWhile_deeper hdeep hfall, h, takeWhile_deeper hdeep' hfall']
      rw [hchildren] at h
      rw [ihc hdeep.2.1 hfall.2.1 hdeep'.2.1 hfall'.2.1 hchildren,
        ihr hdeep.2.2 hfall.2.2 hdeep'.2.2 hfall'.2.2 (List.append_cancel_left h)]

/-- A forest grows from its own preorder and from no other list, if levels increase in it and do
not increase among its siblings, and from no list otherwise. -/
theorem outline_eq_iff {labels : List α} : outline level labels = forest ↔
    forest.preorder = labels ∧ forest.Deepens level ∧ forest.Falls level := by
  constructor
  · rintro rfl
    exact ⟨preorder_outline level labels, deepens_outline level labels,
      falls_outline level labels⟩
  · rintro ⟨rfl, hdeep, hfall⟩
    exact eq_of_preorder (deepens_outline level _) (falls_outline level _) hdeep hfall
      (preorder_outline level _)

end Forest

end Outline

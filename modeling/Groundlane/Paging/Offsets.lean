import Mathlib.Data.List.Forall2
import Mathlib.Data.List.Sort

/-!
# Following offsets into a ranking that changes

Elements are read page by page: a page is cut at an offset out of a ranking that is chosen anew for
each page, and names the offset of the next page. A ranking by keys that several elements share is
not determined by the elements. What is read is one part of each ranking (`Sliced`,
`exists_reads`); its keys are those of the elements in order (`Sliced.map_eq`), and it is each
element once if every page ends at a place that divides the elements by their keys
(`Sliced.perm`, `take_perm`).
-/

namespace Paging

variable {R K C β ε : Type}

/-! ## Places that divide a ranking -/

section Dividing

variable [LinearOrder K] (key : R → K)

/-- The number of elements with smaller keys. -/
def countBelow (elements : List R) (element : R) : Nat :=
  elements.countP fun other => key other < key element

/-- The number of elements without a greater key. -/
def countUpTo (elements : List R) (element : R) : Nat :=
  elements.countP fun other => key other ≤ key element

/-- In every ranking, elements with equal keys lie on the same side of the place. -/
def Divides (elements : List R) (place : Nat) : Prop :=
  ∀ element ∈ elements,
    place ≤ countBelow key elements element ∨ countUpTo key elements element ≤ place

variable {key}

/-- Where the keys are different, every place divides the elements. -/
theorem divides_of_injective {elements : List R} (h : (elements.map key).Nodup) (place : Nat) :
    Divides key elements place := by
  intro element helement
  have hone : elements.countP (fun other => key other = key element) ≤ 1 := by
    have hcount := List.nodup_iff_count_le_one.1 h (key element)
    rw [List.count, List.countP_map] at hcount
    exact hcount
  have hsum : countUpTo key elements element ≤ countBelow key elements element + 1 := by
    have hsplit : ∀ l : List R, l.countP (fun other => decide (key other ≤ key element)) =
        l.countP (fun other => decide (key other < key element)) +
          l.countP fun other => decide (key other = key element) := by
      intro l
      induction l with
      | nil => rfl
      | cons head rest ih =>
        rw [List.countP_cons, List.countP_cons, List.countP_cons, ih]
        rcases lt_trichotomy (key head) (key element) with hlt | heq | hgt
        · simp [hlt, hlt.le, hlt.ne]
          omega
        · simp [heq]
          omega
        · simp [hgt.not_gt, hgt.not_ge, hgt.ne']
    unfold countUpTo countBelow
    rw [hsplit]
    omega
  omega

variable {place : Nat}

/-- An element of a sorted list lies between the elements below it and those behind it. -/
theorem place_of_sorted {ranking : List R} (hsorted : ranking.Pairwise fun a b => key a ≤ key b)
    {element : R} (h : ranking[place]? = some element) :
    countBelow key ranking element ≤ place ∧ place < countUpTo key ranking element := by
  induction ranking generalizing place with
  | nil => exact absurd h nofun
  | cons head rest ih =>
    obtain ⟨hhead, hrest⟩ := List.pairwise_cons.1 hsorted
    unfold countBelow countUpTo
    rw [List.countP_cons, List.countP_cons]
    cases place with
    | zero =>
      obtain rfl : head = element := by simpa using h
      have hnone : rest.countP (fun other => decide (key other < key head)) = 0 :=
        List.countP_eq_zero.2 fun other hother => by simp [hhead other hother]
      rw [hnone]
      simp
    | succ place =>
      have hplace : rest[place]? = some element := by simpa using h
      have hle : key head ≤ key element := hhead element (List.mem_of_getElem? hplace)
      obtain ⟨hbelow, hupTo⟩ := ih hrest hplace
      unfold countBelow at hbelow
      unfold countUpTo at hupTo
      rw [if_pos (decide_eq_true hle)]
      constructor
      · split <;> omega
      · omega

theorem countBelow_perm {elements others : List R} (h : elements.Perm others) :
    countBelow key elements = countBelow key others :=
  funext fun _ => h.countP_eq _

theorem countUpTo_perm {elements others : List R} (h : elements.Perm others) :
    countUpTo key elements = countUpTo key others :=
  funext fun _ => h.countP_eq _

/-- What lies before a dividing place does not depend on the ranking. -/
theorem take_eq_filter {elements ranking : List R} (hdivides : Divides key elements place)
    (hperm : ranking.Perm elements) (hsorted : ranking.Pairwise fun a b => key a ≤ key b) :
    ranking.take place =
      ranking.filter fun element => countUpTo key elements element ≤ place := by
  have hplace : ∀ (i : Nat) (element : R), ranking[i]? = some element →
      countBelow key elements element ≤ i ∧ i < countUpTo key elements element := by
    intro i element h
    rw [← countBelow_perm hperm, ← countUpTo_perm hperm]
    exact place_of_sorted hsorted h
  conv_rhs => rw [← List.take_append_drop place ranking]
  rw [List.filter_append, List.filter_eq_self.2, List.filter_eq_nil_iff.2, List.append_nil]
  · intro element helement
    obtain ⟨i, hi⟩ := List.mem_iff_getElem?.1 helement
    rw [List.getElem?_drop] at hi
    have := (hplace _ _ hi).2
    simp only [decide_eq_true_eq]
    omega
  · intro element helement
    obtain ⟨i, hi⟩ := List.mem_iff_getElem?.1 helement
    have hlt : i < place := by
      by_contra hge
      rw [List.getElem?_eq_none (by rw [List.length_take]; omega)] at hi
      exact absurd hi nofun
    rw [List.getElem?_take_of_lt hlt] at hi
    have hbelow := (hplace _ _ hi).1
    have hmem := hperm.subset (List.mem_of_getElem? hi)
    rw [decide_eq_true_eq]
    exact (hdivides element hmem).resolve_left (by omega)

/-- Two rankings have the same elements before a dividing place. -/
theorem take_perm {elements ranking other : List R} (hdivides : Divides key elements place)
    (hperm : ranking.Perm elements) (hsorted : ranking.Pairwise fun a b => key a ≤ key b)
    (hother : other.Perm elements) (hsorted' : other.Pairwise fun a b => key a ≤ key b) :
    (ranking.take place).Perm (other.take place) := by
  rw [take_eq_filter hdivides hperm hsorted, take_eq_filter hdivides hother hsorted']
  exact (hperm.trans hother.symm).filter _

variable (key) in
/-- Two rankings have the same keys in the same order. -/
theorem map_eq_of_sorted {ranking other : List R} (hperm : ranking.Perm other)
    (hsorted : ranking.Pairwise fun a b => key a ≤ key b)
    (hsorted' : other.Pairwise fun a b => key a ≤ key b) : ranking.map key = other.map key := by
  have hle : ∀ l : List R, l.Pairwise (fun a b => key a ≤ key b) →
      (l.map key).Pairwise fun a b => a ≤ b := fun _ h => List.pairwise_map.2 h
  exact (hperm.map key).eq_of_pairwise (fun a b _ _ => le_antisymm) (hle _ hsorted) (hle _ hsorted')

end Dividing

/-! ## Parts of rankings -/

variable {ranking : Nat → List R} {size : Nat → Nat} {total : Nat}

/-- Where a page starts. -/
def pageStart (size : Nat → Nat) : Nat → Nat
  | 0 => 0
  | page + 1 => pageStart size page + size page

/-- From a page and its offset on, one part of each ranking, up to the end of the last one. -/
inductive Sliced (ranking : Nat → List R) (size : Nat → Nat) (total : Nat) :
    Nat → Nat → List R → Prop
  | last {page offset : Nat} (h : total ≤ offset + size page) :
    Sliced ranking size total page offset (((ranking page).drop offset).take (size page))
  | more {page offset : Nat} {rest : List R} (h : offset + size page < total)
    (hrest : Sliced ranking size total (page + 1) (offset + size page) rest) :
    Sliced ranking size total page offset
      (((ranking page).drop offset).take (size page) ++ rest)

/-- The keys are those of any ranking, in order. -/
theorem Sliced.map_eq {page offset : Nat} {listed : List R} {keys : List K}
    (h : Sliced ranking size total page offset listed) (key : R → K)
    (hkeys : ∀ page, (ranking page).map key = keys) (htotal : keys.length = total) :
    listed.map key = keys.drop offset := by
  induction h with
  | last h =>
    rw [List.map_take, List.map_drop, hkeys]
    refine List.take_of_length_le ?_
    rw [List.length_drop]
    omega
  | more h hrest ih =>
    rw [List.map_append, List.map_take, List.map_drop, hkeys, ih, ← List.drop_drop,
      List.take_append_drop]

/-- If the rankings have the same elements before every place where a page starts, each element is
listed once. -/
theorem Sliced.perm {page offset : Nat} {listed elements : List R}
    (h : Sliced ranking size total page offset listed) (hoffset : offset = pageStart size page)
    (htotal : elements.length = total) (hperm : ∀ page, (ranking page).Perm elements)
    (hstarts : ∀ page, pageStart size page < total →
      ∀ other, ((ranking other).take (pageStart size page)).Perm
        (elements.take (pageStart size page))) :
    listed.Perm (elements.drop offset) := by
  have hdrop : ∀ (start other : Nat), (start < total → ((ranking other).take start).Perm
      (elements.take start)) → ((ranking other).drop start).Perm (elements.drop start) := by
    intro start other htake
    by_cases hstart : start < total
    · have hall := hperm other
      rw [← List.take_append_drop start (ranking other),
        ← List.take_append_drop start elements] at hall
      exact (List.perm_append_left_iff _).1 (((htake hstart).symm.append_right _).trans hall)
    · have hlength := (hperm other).length_eq
      rw [List.drop_of_length_le (by omega), List.drop_of_length_le (by omega)]
  induction h with
  | @last page offset h =>
    subst hoffset
    have hlength := (hperm page).length_eq
    rw [List.take_of_length_le (by rw [List.length_drop]; omega)]
    exact hdrop _ _ fun hstart => hstarts page hstart page
  | @more page offset rest h hrest ih =>
    have hnext : offset + size page = pageStart size (page + 1) := by rw [hoffset, pageStart]
    have hrest' := ih hnext
    have hhere := hdrop offset page fun hstart => by
      rw [hoffset] at hstart ⊢
      exact hstarts page hstart page
    have hbehind := hdrop (offset + size page) page fun hstart => by
      rw [hnext] at hstart ⊢
      exact hstarts (page + 1) hstart page
    have hjoined : (((ranking page).drop offset).take (size page) ++
        (ranking page).drop (offset + size page)).Perm (elements.drop offset) := by
      rw [← List.drop_drop, List.take_append_drop]
      exact hhere
    exact ((hrest'.trans hbehind.symm).append_left _).trans hjoined

/-! ## Reading -/

/-- Pages that are read by following the cursors, each page with a query of its own. -/
inductive Reads (ask : Nat → Option C → Except ε (List β × Option C)) :
    Nat → Option C → List (List β) → Prop
  | last {page : Nat} {cursor : Option C} {items : List β}
    (h : ask page cursor = .ok (items, none)) : Reads ask page cursor [items]
  | more {page : Nat} {cursor : Option C} {next : C} {items : List β} {pages : List (List β)}
    (h : ask page cursor = .ok (items, some next))
    (hrest : Reads ask (page + 1) (some next) pages) : Reads ask page cursor (items :: pages)

variable {ask : Nat → Option C → Except ε (List β × Option C)}

/-- The queries determine what is read. -/
theorem Reads.unique {page : Nat} {cursor : Option C} {pages others : List (List β)}
    (h : Reads ask page cursor pages) (hothers : Reads ask page cursor others) :
    pages = others := by
  induction h generalizing others with
  | last h =>
    cases hothers with
    | last h' => rw [(Prod.mk.inj (Except.ok.inj (h.symm.trans h'))).1]
    | more h' _ => exact absurd (Prod.mk.inj (Except.ok.inj (h.symm.trans h'))).2 nofun
  | more h _ ih =>
    cases hothers with
    | last h' => exact absurd (Prod.mk.inj (Except.ok.inj (h.symm.trans h'))).2 nofun
    | more h' hrest =>
      obtain ⟨rfl, hnext⟩ := Prod.mk.inj (Except.ok.inj (h.symm.trans h'))
      obtain rfl := Option.some.inj hnext
      rw [ih hrest]

/-- Pages that are cut out of the rankings are read to the end. -/
theorem exists_reads {view : Nat → R → β} {cursorAt : Nat → C} (hsize : ∀ page, 0 < size page)
    (hask : ∀ page offset, ask page (some (cursorAt offset)) =
      .ok ((((ranking page).drop offset).take (size page)).map (view page),
        if offset + size page < total then some (cursorAt (offset + size page)) else none)) :
    ∀ (left page offset : Nat), total - offset ≤ left →
      ∃ pages listed, Reads ask page (some (cursorAt offset)) pages ∧
        Sliced ranking size total page offset listed ∧
        List.Forall₂ (fun element item => ∃ page, item = view page element) listed
          pages.flatten := by
  have hviewed : ∀ (page : Nat) (part : List R),
      List.Forall₂ (fun element item => ∃ page, item = view page element) part
        (part.map (view page)) := by
    intro page part
    exact List.forall₂_map_right_iff.2 (List.forall₂_same.2 fun element _ => ⟨page, rfl⟩)
  have hlast : ∀ page offset, ¬ offset + size page < total →
      ∃ pages listed, Reads ask page (some (cursorAt offset)) pages ∧
        Sliced ranking size total page offset listed ∧
        List.Forall₂ (fun element item => ∃ page, item = view page element) listed
          pages.flatten := by
    intro page offset hend
    have hpage := hask page offset
    rw [if_neg hend] at hpage
    refine ⟨_, _, .last hpage, .last (Nat.not_lt.1 hend), ?_⟩
    rw [List.flatten_singleton]
    exact hviewed page _
  intro left
  induction left with
  | zero =>
    intro page offset hleft
    exact hlast page offset (by omega)
  | succ left ih =>
    intro page offset hleft
    by_cases hend : offset + size page < total
    · have hpos := hsize page
      obtain ⟨pages, listed, hreads, hsliced, hitems⟩ :=
        ih (page + 1) (offset + size page) (by omega)
      have hpage := hask page offset
      rw [if_pos hend] at hpage
      refine ⟨_, _, .more hpage hreads, .more hend hsliced, ?_⟩
      rw [List.flatten_cons]
      exact List.rel_append (hviewed page _) hitems
    · exact hlast page offset hend

end Paging

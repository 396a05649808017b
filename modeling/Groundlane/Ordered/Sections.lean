import Mathlib.Order.Basic
import Mathlib.Data.Nat.Find
import Mathlib.Tactic.Common

/-!
# Sections of an outline

Some of the places of a text are headings with a level. The section of a title begins at the first
place that has the title and goes on up to the next heading of the same or a smaller level, or to
the end (`IsSection`). There is at most one (`IsSection.unique`), and there is one if some place has
the title (`exists_isSection`). Two ways to read the same text find the same section under a
condition on the places up to its end (`finds_iff`).
-/

namespace Sections

/-- How a text is read: the level of a place that has the title, and of any heading. -/
structure Reading where
  title : Nat → Option Nat
  level : Nat → Option Nat

/-- The places from `start` up to `stop` are the section of the title, under a heading of the level
`own`. -/
structure IsSection (count : Nat) (reading : Reading) (own start stop : Nat) : Prop where
  title : reading.title start = some own
  first : ∀ i < start, reading.title i = none
  behind : start < stop
  within : stop ≤ count
  deeper : ∀ i other, start < i → i < stop → reading.level i = some other → own < other
  ends : stop < count → ∃ other, reading.level stop = some other ∧ other ≤ own

variable {count : Nat} {reading other : Reading}

theorem IsSection.unique {own start stop own' start' stop' : Nat}
    (h : IsSection count reading own start stop) (h' : IsSection count reading own' start' stop') :
    own = own' ∧ start = start' ∧ stop = stop' := by
  have hstart : start = start' := by
    rcases Nat.lt_trichotomy start start' with hlt | heq | hgt
    · have hnone := h'.first start hlt
      rw [h.title] at hnone
      cases hnone
    · exact heq
    · have hnone := h.first start' hgt
      rw [h'.title] at hnone
      cases hnone
  subst hstart
  obtain rfl := Option.some.inj (h.title.symm.trans h'.title)
  refine ⟨rfl, rfl, ?_⟩
  -- A heading that ends one of them is too deep to be inside the other.
  rcases Nat.lt_trichotomy stop stop' with hlt | heq | hgt
  · obtain ⟨level, hlevel, hle⟩ := h.ends (Nat.lt_of_lt_of_le hlt h'.within)
    have hdeeper := h'.deeper stop level h.behind hlt hlevel
    omega
  · exact heq
  · obtain ⟨level, hlevel, hle⟩ := h'.ends (Nat.lt_of_lt_of_le hgt h.within)
    have hdeeper := h.deeper stop' level h'.behind hgt hlevel
    omega

/-- Behind a place, there is a first one that passes a test, or none up to the end. -/
theorem exists_stop (passes : Nat → Prop) {start : Nat} (hstart : start < count) :
    ∃ stop, start < stop ∧ stop ≤ count ∧ (∀ i, start < i → i < stop → ¬ passes i) ∧
      (stop < count → passes stop) := by
  classical
  have hexists : ∃ stop, start < stop ∧ (count ≤ stop ∨ passes stop) := ⟨count, hstart, .inl le_rfl⟩
  refine ⟨Nat.find hexists, (Nat.find_spec hexists).1, Nat.find_min' hexists ⟨hstart, .inl le_rfl⟩,
    ?_, ?_⟩
  · intro i hbehind hlt hpasses
    exact Nat.find_min hexists hlt ⟨hbehind, .inr hpasses⟩
  · intro hlt
    exact (Nat.find_spec hexists).2.resolve_left (Nat.not_le.2 hlt)

/-- If a place has the title, there is a section. -/
theorem exists_isSection {i : Nat} (hi : i < count) (htitle : reading.title i ≠ none) :
    ∃ own start stop, start ≤ i ∧ IsSection count reading own start stop := by
  classical
  have hexists : ∃ i, reading.title i ≠ none := ⟨i, htitle⟩
  have hle : Nat.find hexists ≤ i := Nat.find_min' hexists htitle
  obtain ⟨own, hown⟩ := Option.ne_none_iff_exists'.1 (Nat.find_spec hexists)
  obtain ⟨stop, hbehind, hwithin, hnone, hends⟩ :=
    exists_stop (fun place => ∃ level, reading.level place = some level ∧ level ≤ own)
      (Nat.lt_of_le_of_lt hle hi)
  refine ⟨own, Nat.find hexists, stop, hle, hown, fun j hlt => ?_, hbehind, hwithin, ?_, hends⟩
  · exact not_not.1 (Nat.find_min hexists hlt)
  · intro j level hstart hstop hlevel
    exact Nat.lt_of_not_le fun hle => hnone j hstart hstop ⟨level, hlevel, hle⟩

/-- The other reading finds the section of the reading, or nothing where there is none. -/
def Finds (count : Nat) (reading other : Reading) : Prop :=
  (∀ own start stop, IsSection count reading own start stop →
    IsSection count other own start stop) ∧
  ((∀ i < count, reading.title i = none) → ∀ i < count, other.title i = none)

/-- The other reading sees the title at no place in front of the section and at its heading, and
the same end. -/
structure Agrees (count : Nat) (reading other : Reading) : Prop where
  front : ∀ i < count, other.title i ≠ none → ∃ j ≤ i, reading.title j ≠ none
  heading : ∀ own start stop, IsSection count reading own start stop → other.title start ≠ none
  inside : ∀ own start stop, IsSection count reading own start stop →
    ∀ i level, start < i → i < stop → other.level i = some level → own < level
  ends : ∀ own start stop, IsSection count reading own start stop → stop < count →
    ∃ level, other.level stop = some level ∧ level ≤ own

/-- If both readings see the same levels, the other one finds the section exactly if it agrees. -/
theorem finds_iff
    (hlevel : ∀ i own own', reading.title i = some own → other.title i = some own' → own = own') :
    Finds count reading other ↔ Agrees count reading other := by
  constructor
  · intro h
    obtain ⟨hsection, hnone⟩ := h
    refine ⟨fun i hi htitle => ?_, fun own start stop his => ?_, fun own start stop his => ?_,
      fun own start stop his => (hsection own start stop his).ends⟩
    · by_cases hsome : ∃ j < count, reading.title j ≠ none
      · obtain ⟨j, hj, hplace⟩ := hsome
        obtain ⟨own, start, stop, -, his⟩ := exists_isSection hj hplace
        refine ⟨start, ?_, by simp [his.title]⟩
        -- The other reading has no title in front of its section.
        by_contra hlt
        exact htitle ((hsection own start stop his).first i (Nat.lt_of_not_le hlt))
      · refine absurd (hnone (fun j hj => ?_) i hi) htitle
        by_contra hplace
        exact hsome ⟨j, hj, hplace⟩
    · simp [(hsection own start stop his).title]
    · exact (hsection own start stop his).deeper
  · intro h
    constructor
    · intro own start stop his
      obtain ⟨own', hown'⟩ := Option.ne_none_iff_exists'.1 (h.heading own start stop his)
      obtain rfl := hlevel start own own' his.title hown'
      refine ⟨hown', fun i hlt => ?_, his.behind, his.within, h.inside own start stop his,
        h.ends own start stop his⟩
      by_contra htitle
      have hstart := his.behind
      have hwithin := his.within
      obtain ⟨j, hle, hplace⟩ := h.front i (by omega) htitle
      exact hplace (his.first j (by omega))
    · intro hnone i hi
      by_contra htitle
      obtain ⟨j, hle, hplace⟩ := h.front i hi htitle
      exact hplace (hnone j (by omega))

end Sections

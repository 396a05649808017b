import Mathlib.Data.List.Perm.Basic
import Mathlib.Data.List.Sort
import Mathlib.Order.Basic

/-!
# Following cursors

Elements with keys are listed in some ranking and read page by page: a page holds the first
elements of the ranking whose keys are greater than the cursor, and its last key is the next
cursor (`scanPage`). Following the cursors visits every element once exactly when each key after
which a page can end splits the ranking: the elements up to it have no greater key, those behind
it have (`visitsOnce_iff`). A ranking by the keys themselves always is split so
(`aligned_of_sorted`).
-/

namespace Paging

variable {R K ε : Type}

/-- Pages that are read by following the cursors up to the last page. -/
inductive Visits (scan : Option K → Except ε (List R × Option K)) :
    Option K → List (List R) → Prop
  | last {cursor : Option K} {page : List R} (h : scan cursor = .ok (page, none)) :
    Visits scan cursor [page]
  | more {cursor : Option K} {next : K} {page : List R} {pages : List (List R)}
    (h : scan cursor = .ok (page, some next)) (hrest : Visits scan (some next) pages) :
    Visits scan cursor (page :: pages)

/-- From the start to the last page, every element is visited once. -/
def VisitsOnce (scan : Option K → Except ε (List R × Option K)) (elements : List R) : Prop :=
  ∃ pages, Visits scan none pages ∧ pages.flatten.Perm elements

variable {scan : Option K → Except ε (List R × Option K)} {ranking : List R} {limit : Nat}
  {cursor : Option K} {pages : List (List R)} {last : R}

theorem VisitsOnce.perm {elements others : List R} (hperm : elements.Perm others) :
    VisitsOnce scan elements ↔ VisitsOnce scan others :=
  ⟨fun ⟨pages, hvisits, honce⟩ => ⟨pages, hvisits, honce.trans hperm⟩,
    fun ⟨pages, hvisits, honce⟩ => ⟨pages, hvisits, honce.trans hperm.symm⟩⟩

variable [LinearOrder K] (key : R → K)

/-- Whether an element comes behind the cursor. -/
def isBehind (cursor : Option K) (element : R) : Bool :=
  match cursor with
  | some last => decide (last < key element)
  | none => true

/-- One page of a ranking. -/
def scanPage (ranking : List R) (limit : Nat) (cursor : Option K) : List R × Option K :=
  let left := ranking.filter (isBehind key cursor)
  (left.take limit, if limit < left.length then (left.take limit).getLast?.map key else none)

/-- A page whose query fetches one element more, to see whether there is another page. -/
theorem scanPage_eq_fetch (ranking : List R) (limit : Nat) (cursor : Option K) :
    scanPage key ranking limit cursor =
      let fetched := (ranking.filter (isBehind key cursor)).take (limit + 1)
      (fetched.take limit,
        if limit < fetched.length then (fetched.take limit).getLast?.map key else none) := by
  have hpage : ((ranking.filter (isBehind key cursor)).take (limit + 1)).take limit =
      (ranking.filter (isBehind key cursor)).take limit := by
    rw [List.take_take, Nat.min_eq_left (Nat.le_succ limit)]
  have hmore : limit < ((ranking.filter (isBehind key cursor)).take (limit + 1)).length ↔
      limit < (ranking.filter (isBehind key cursor)).length := by
    rw [List.length_take]
    omega
  unfold scanPage
  simp only [hpage, hmore]

/-- The keys up to place `i` are not greater than the one before it, those behind it are. -/
def SplitsAt (ranking : List R) (i : Nat) (last : R) : Prop :=
  (∀ element ∈ ranking.take i, key element ≤ key last) ∧
    ∀ element ∈ ranking.drop i, key last < key element

/-- Every key after which a page can end splits the ranking. -/
def Aligned (ranking : List R) (limit : Nat) : Prop :=
  ∀ i, 0 < i → i < ranking.length → limit ∣ i → ∀ last, ranking[i - 1]? = some last →
    SplitsAt key ranking i last

variable {key}

/-- What a splitting key leaves to read. -/
theorem SplitsAt.filter_eq {i : Nat} (h : SplitsAt key ranking i last) :
    ranking.filter (isBehind key (some (key last))) = ranking.drop i := by
  conv_lhs => rw [← List.take_append_drop i ranking]
  rw [List.filter_append, List.filter_eq_nil_iff.2, List.filter_eq_self.2, List.nil_append]
  · intro element helement
    exact decide_eq_true (h.2 element helement)
  · intro element helement
    simpa [isBehind] using h.1 element helement

/-- The page of a splitting cursor is the next slice of the ranking. -/
theorem scanPage_of_filter {ranking left : List R} (hlimit : 1 ≤ limit)
    (hleft : ranking.filter (isBehind key cursor) = left) (hmore : limit < left.length) :
    ∃ last, left[limit - 1]? = some last ∧
      scanPage key ranking limit cursor = (left.take limit, some (key last)) := by
  have hlast : limit - 1 < left.length := by omega
  refine ⟨left[limit - 1], List.getElem?_eq_getElem hlast, ?_⟩
  have hlength : (left.take limit).length = limit := List.length_take_of_le hmore.le
  unfold scanPage
  dsimp only
  rw [hleft, if_pos hmore, List.getLast?_eq_getElem?, hlength, List.getElem?_take_of_lt (by omega),
    List.getElem?_eq_getElem hlast]
  rfl

theorem scanPage_of_le {ranking left : List R} (hleft : ranking.filter (isBehind key cursor) = left)
    (hlast : left.length ≤ limit) : scanPage key ranking limit cursor = (left, none) := by
  unfold scanPage
  dsimp only
  rw [hleft, if_neg (by omega), List.take_of_length_le hlast]

/-- The last page is everything that is left; another one names the key that it ends with. -/
theorem scanPage_cases {page : List R} {next : Option K} (hlimit : 1 ≤ limit)
    (h : scanPage key ranking limit cursor = (page, next)) :
    (next = none ∧ page = ranking.filter (isBehind key cursor) ∧ page.length ≤ limit) ∨
      ∃ last, next = some (key last) ∧
        page = (ranking.filter (isBehind key cursor)).take limit ∧
        (ranking.filter (isBehind key cursor))[limit - 1]? = some last ∧
        limit < (ranking.filter (isBehind key cursor)).length := by
  by_cases hmore : limit < (ranking.filter (isBehind key cursor)).length
  · obtain ⟨last, hlast, hpage⟩ := scanPage_of_filter hlimit rfl hmore
    obtain ⟨rfl, rfl⟩ := Prod.mk.inj (hpage.symm.trans h)
    exact .inr ⟨last, rfl, rfl, hlast, hmore⟩
  · have hpage := scanPage_of_le rfl (Nat.le_of_not_lt hmore)
    obtain ⟨rfl, rfl⟩ := Prod.mk.inj (hpage.symm.trans h)
    exact .inl ⟨rfl, rfl, Nat.le_of_not_lt hmore⟩

/-! ## Enough -/

variable (key) in
/-- The start, or the key of an element. -/
def Reached (ranking : List R) : Option K → Prop
  | some last => ∃ element ∈ ranking, key element = last
  | none => True

/-- From a place where a page ends, the rest of an aligned ranking is read in order. -/
theorem Aligned.visits (h : Aligned key ranking limit) (hlimit : 1 ≤ limit)
    (hscan : ∀ cursor, Reached key ranking cursor →
      scan cursor = .ok (scanPage key ranking limit cursor)) :
    ∀ (rest i : Nat) (cursor : Option K), Reached key ranking cursor →
      ranking.length - i ≤ rest → limit ∣ i →
      ranking.filter (isBehind key cursor) = ranking.drop i →
      ∃ pages, Visits scan cursor pages ∧ pages.flatten = ranking.drop i := by
  intro rest
  induction rest with
  | zero =>
    intro i cursor hreached hrest hdvd hleft
    have hnone : ranking.drop i = [] := List.drop_eq_nil_of_le (by omega)
    refine ⟨[[]], .last ?_, hnone.symm⟩
    rw [hscan _ hreached, scanPage_of_le (hleft.trans hnone) (Nat.zero_le _)]
  | succ rest ih =>
    intro i cursor hreached hrest hdvd hleft
    by_cases hmore : limit < (ranking.drop i).length
    · obtain ⟨last, hlast, hpage⟩ := scanPage_of_filter hlimit hleft hmore
      rw [List.length_drop] at hmore
      have hplace : ranking[i + limit - 1]? = some last := by
        rw [List.getElem?_drop] at hlast
        rw [← hlast]
        congr 1
        omega
      have hdvd' : limit ∣ i + limit := Nat.dvd_add hdvd (Nat.dvd_refl limit)
      have hsplit := h (i + limit) (by omega) (by omega) hdvd' last hplace
      obtain ⟨_, hpages, hflatten⟩ := ih (i + limit) (some (key last))
        ⟨last, List.mem_of_getElem? hplace, rfl⟩ (by omega) hdvd' hsplit.filter_eq
      refine ⟨_, .more (by rw [hscan _ hreached, hpage]) hpages, ?_⟩
      rw [List.flatten_cons, hflatten, ← List.drop_drop, List.take_append_drop]
    · refine ⟨[ranking.drop i], .last ?_, List.flatten_singleton⟩
      rw [hscan _ hreached, scanPage_of_le hleft (by omega)]

/-- Following the cursors visits every element of an aligned ranking once. -/
theorem Aligned.visitsOnce (h : Aligned key ranking limit) (hlimit : 1 ≤ limit)
    (hscan : ∀ cursor, Reached key ranking cursor →
      scan cursor = .ok (scanPage key ranking limit cursor)) : VisitsOnce scan ranking := by
  have hall : ranking.filter (isBehind key none) = ranking :=
    List.filter_eq_self.2 fun _ _ => rfl
  obtain ⟨pages, hvisits, hflatten⟩ := h.visits hlimit hscan ranking.length 0 none trivial
    (Nat.sub_le _ _) (Nat.dvd_zero limit) hall
  exact ⟨pages, hvisits, by rw [hflatten]; exact List.Perm.refl _⟩

/-! ## Needed -/

theorem isBehind_trans {element next : R} (h : isBehind key cursor element = true)
    (hlt : key element < key next) : isBehind key cursor next = true := by
  cases cursor with
  | none => rfl
  | some last => exact decide_eq_true ((of_decide_eq_true h).trans hlt)

/-- What lies behind an element that lies behind the cursor. -/
theorem filter_isBehind_some (ranking : List R) (h : isBehind key cursor last = true) :
    ranking.filter (isBehind key (some (key last))) =
      (ranking.filter (isBehind key cursor)).filter (isBehind key (some (key last))) := by
  rw [List.filter_filter]
  refine List.filter_congr fun element _ => ?_
  cases hbehind : isBehind key (some (key last)) element with
  | false => rfl
  | true => exact (isBehind_trans h (of_decide_eq_true hbehind)).symm

/-- What is visited from a cursor on lies behind it. -/
theorem Visits.subset (hlimit : 1 ≤ limit)
    (hscan : ∀ cursor, scan cursor = .ok (scanPage key ranking limit cursor))
    (h : Visits scan cursor pages) : pages.flatten ⊆ ranking.filter (isBehind key cursor) := by
  induction h with
  | last h =>
    obtain ⟨-, rfl, -⟩ | ⟨_, hnext, -⟩ :=
      scanPage_cases hlimit (Except.ok.inj ((hscan _).symm.trans h))
    · rw [List.flatten_singleton]
      exact List.Subset.refl _
    · cases hnext
  | more h hrest ih =>
    obtain ⟨hnext, -⟩ | ⟨_, hnext, rfl, hlast, -⟩ :=
      scanPage_cases hlimit (Except.ok.inj ((hscan _).symm.trans h))
    · cases hnext
    · obtain rfl := Option.some.inj hnext
      have hbehind := List.of_mem_filter (List.mem_of_getElem? hlast)
      rw [List.flatten_cons]
      rw [filter_isBehind_some ranking hbehind] at ih
      exact List.append_subset.2
        ⟨List.take_subset _ _, List.Subset.trans ih List.filter_sublist.subset⟩

/-- The first element behind a cursor is visited from there on. -/
theorem Visits.first_mem (hlimit : 1 ≤ limit)
    (hscan : ∀ cursor, scan cursor = .ok (scanPage key ranking limit cursor))
    (h : Visits scan cursor pages) {element : R}
    (hfirst : (ranking.filter (isBehind key cursor)).head? = some element) :
    element ∈ pages.flatten := by
  cases h with
  | last h =>
    obtain ⟨-, rfl, -⟩ | ⟨_, hnext, -⟩ :=
      scanPage_cases hlimit (Except.ok.inj ((hscan _).symm.trans h))
    · rw [List.flatten_singleton]
      exact List.mem_of_head? hfirst
    · cases hnext
  | more h hrest =>
    obtain ⟨hnext, -⟩ | ⟨_, hnext, rfl, _, -⟩ :=
      scanPage_cases hlimit (Except.ok.inj ((hscan _).symm.trans h))
    · cases hnext
    · refine List.mem_append_left _ (List.mem_of_head? ?_)
      rw [List.head?_take, if_neg (by omega)]
      exact hfirst

/-- If the first page is not read again and the rest is, the key between them splits the list. -/
theorem splitsAt_of_perm {left : List R} {rest : List R} (hnodup : left.Nodup)
    (hperm : rest.Perm (left.drop limit))
    (hsubset : rest ⊆ left.filter (isBehind key (some (key last))))
    (hfirst : ∀ element, (left.filter (isBehind key (some (key last)))).head? = some element →
      element ∈ rest) : SplitsAt key left limit last := by
  constructor
  · intro element helement
    by_contra hgreater
    have hbehind : isBehind key (some (key last)) element = true :=
      decide_eq_true (not_le.1 hgreater)
    -- The first element behind the key would be one of the first page.
    have hsome := List.mem_filter.2 ⟨helement, hbehind⟩
    cases hfilter : (left.take limit).filter (isBehind key (some (key last))) with
    | nil => rw [hfilter] at hsome; exact List.not_mem_nil hsome
    | cons again others =>
      have hagain : again ∈ left.take limit :=
        List.mem_of_mem_filter (hfilter ▸ List.mem_cons_self)
      have hrest : again ∈ rest := by
        refine hfirst again ?_
        conv_lhs => rw [← List.take_append_drop limit left]
        rw [List.filter_append, hfilter]
        rfl
      have hdisjoint := List.disjoint_take_drop hnodup (Nat.le_refl limit)
      exact hdisjoint hagain (hperm.mem_iff.1 hrest)
  · intro element helement
    have hbehind := List.of_mem_filter (hsubset (hperm.mem_iff.2 helement))
    exact of_decide_eq_true (show decide (key last < key element) = true from hbehind)

/-- A ranking that is split behind its first page, with the rest aligned. -/
theorem Aligned.of_drop {left : List R} (hlast : left[limit - 1]? = some last)
    (hsplit : SplitsAt key left limit last) (hrest : Aligned key (left.drop limit) limit) :
    Aligned key left limit := by
  intro i hpos hi hdvd other hother
  rcases Nat.eq_or_lt_of_le (Nat.le_of_dvd hpos hdvd) with rfl | hlater
  · obtain rfl := Option.some.inj (hlast.symm.trans hother)
    exact hsplit
  · obtain ⟨j, rfl⟩ : ∃ j, i = limit + j := ⟨i - limit, by omega⟩
    have hdvd' : limit ∣ j := (Nat.dvd_add_right (Nat.dvd_refl limit)).1 hdvd
    have hother' : (left.drop limit)[j - 1]? = some other := by
      rw [List.getElem?_drop, ← hother]
      congr 1
      omega
    obtain ⟨hbefore, hbehind⟩ :=
      hrest j (by omega) (by rw [List.length_drop]; omega) hdvd' other hother'
    refine ⟨fun element helement => ?_, fun element helement => ?_⟩
    · rw [List.take_add, List.mem_append] at helement
      rcases helement with helement | helement
      · exact (hsplit.1 element helement).trans (hsplit.2 other (List.mem_of_getElem? hother')).le
      · exact hbefore element helement
    · rw [← List.drop_drop] at helement
      exact hbehind element helement

/-- If everything behind a cursor is visited once from there on, it is aligned. -/
theorem Visits.aligned (hlimit : 1 ≤ limit)
    (hscan : ∀ cursor, scan cursor = .ok (scanPage key ranking limit cursor))
    (h : Visits scan cursor pages) (hnodup : ranking.Nodup)
    (honce : pages.flatten.Perm (ranking.filter (isBehind key cursor))) :
    Aligned key (ranking.filter (isBehind key cursor)) limit := by
  induction h with
  | last h =>
    obtain ⟨-, rfl, _⟩ | ⟨_, hnext, -⟩ :=
      scanPage_cases hlimit (Except.ok.inj ((hscan _).symm.trans h))
    · intro i hpos hi hdvd
      have hlimit' := Nat.le_of_dvd hpos hdvd
      omega
    · cases hnext
  | @more cursor next page pages h hrest ih =>
    obtain ⟨hnext, -⟩ | ⟨last, hnext, rfl, hlast, _⟩ :=
      scanPage_cases hlimit (Except.ok.inj ((hscan _).symm.trans h))
    · cases hnext
    obtain rfl := Option.some.inj hnext
    have hbehind := List.of_mem_filter (List.mem_of_getElem? hlast)
    have hleft := filter_isBehind_some ranking hbehind
    have hsubset := hrest.subset hlimit hscan
    have hfirst : ∀ element,
        (ranking.filter (isBehind key (some (key last)))).head? = some element →
        element ∈ pages.flatten := fun _ => hrest.first_mem hlimit hscan
    rw [hleft] at ih hsubset hfirst
    have hnodup := hnodup.filter (isBehind key cursor)
    generalize ranking.filter (isBehind key cursor) = left at *
    rw [List.flatten_cons] at honce
    have hrestPerm : pages.flatten.Perm (left.drop limit) := by
      rw [← List.perm_append_left_iff (left.take limit), List.take_append_drop]
      exact honce
    have hsplit : SplitsAt key left limit last :=
      splitsAt_of_perm hnodup hrestPerm hsubset hfirst
    rw [hsplit.filter_eq] at ih
    exact .of_drop hlast hsplit (ih hrestPerm)

/-! ## Exactly -/

/-- Following the cursors visits every element once exactly when the ranking is aligned. -/
theorem visitsOnce_iff (hlimit : 1 ≤ limit) (hnodup : ranking.Nodup)
    (hscan : ∀ cursor, scan cursor = .ok (scanPage key ranking limit cursor)) :
    VisitsOnce scan ranking ↔ Aligned key ranking limit := by
  constructor
  · rintro ⟨_, hvisits, hperm⟩
    have hall : ranking.filter (isBehind key none) = ranking :=
      List.filter_eq_self.2 fun _ _ => rfl
    have haligned := hvisits.aligned hlimit hscan hnodup (hall.symm ▸ hperm)
    rwa [hall] at haligned
  · intro haligned
    exact haligned.visitsOnce hlimit fun cursor _ => hscan cursor

/-- A ranking by the keys is aligned. -/
theorem aligned_of_sorted (h : ranking.Pairwise fun a b => key a < key b) (limit : Nat) :
    Aligned key ranking limit := by
  intro i hpos hi _ last hlast
  obtain ⟨hlt, rfl⟩ := List.getElem?_eq_some_iff.1 hlast
  rw [List.pairwise_iff_getElem] at h
  refine ⟨fun element helement => ?_, fun element helement => ?_⟩
  · obtain ⟨j, hj, rfl⟩ := List.mem_take_iff_getElem.1 helement
    rcases Nat.eq_or_lt_of_le (show j ≤ i - 1 by omega) with rfl | hlt'
    · exact le_rfl
    · exact (h j (i - 1) (by omega) hlt hlt').le
  · obtain ⟨j, _, rfl⟩ := List.mem_drop_iff_getElem.1 helement
    exact h (i - 1) (i + j) hlt (by omega) (by omega)

end Paging

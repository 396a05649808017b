import Mathlib.Data.List.Basic
import Mathlib.Tactic.Common

/-!
# Clusters and runs of a list

A walk over a list opens a new cluster at every element that is far from the first element of the
current one. The clusters put together are the list (`flatten_clustersFrom`), the elements of a
cluster are not far from its first one (`near_clustersFrom`), and the first element of each cluster
is far from that of the cluster in front of it (`apart_clustersFrom`). A second walk collects the
places at which runs of elements that pass a test start and stop; these are exactly the maximal runs
of a least length (`mem_runsFrom_iff`), one behind the other (`pairwise_runsFrom`).
-/

namespace Clusters

variable {α : Type}

/-! ## Clusters -/

/-- The clusters of a list behind the first element and the others of the current cluster. -/
def clustersFrom (far : α → α → Bool) (first : α) (others : List α) : List α → List (List α)
  | [] => [first :: others]
  | a :: rest =>
    if far first a then (first :: others) :: clustersFrom far a [] rest
    else clustersFrom far first (others ++ [a]) rest

/-- The clusters of a list. -/
def clusters (far : α → α → Bool) : List α → List (List α)
  | [] => []
  | a :: rest => clustersFrom far a [] rest

/-- The first elements of the clusters behind the current one. -/
def leadersFrom (far : α → α → Bool) (first : α) : List α → List α
  | [] => []
  | a :: rest => if far first a then a :: leadersFrom far a rest else leadersFrom far first rest

/-- The first elements of the clusters. -/
def leaders (far : α → α → Bool) : List α → List α
  | [] => []
  | a :: rest => a :: leadersFrom far a rest

variable {far : α → α → Bool}

theorem flatten_clustersFrom (first : α) (others list : List α) :
    (clustersFrom far first others list).flatten = first :: others ++ list := by
  induction list generalizing first others with
  | nil => simp [clustersFrom]
  | cons a rest ih =>
    unfold clustersFrom
    split
    · simp [ih]
    · rw [ih]
      simp

/-- The clusters make up the list. -/
@[simp] theorem flatten_clusters (list : List α) : (clusters far list).flatten = list := by
  cases list with
  | nil => rfl
  | cons a rest => exact flatten_clustersFrom a [] rest

theorem near_clustersFrom {first : α} {others : List α}
    (hothers : ∀ a ∈ others, far first a = false) (list : List α) :
    ∀ cluster ∈ clustersFrom far first others list, ∃ head tail, cluster = head :: tail ∧
      ∀ a ∈ tail, far head a = false := by
  induction list generalizing first others with
  | nil =>
    intro cluster hcluster
    exact ⟨first, others, List.mem_singleton.1 hcluster, hothers⟩
  | cons a rest ih =>
    unfold clustersFrom
    split
    · intro cluster hcluster
      rcases List.mem_cons.1 hcluster with rfl | hrest
      · exact ⟨first, others, rfl, hothers⟩
      · exact ih (fun _ hb => absurd hb List.not_mem_nil) cluster hrest
    · rename_i hnear
      refine ih fun b hb => ?_
      rcases List.mem_append.1 hb with hb | hb
      · exact hothers b hb
      · rw [List.mem_singleton.1 hb]
        exact Bool.eq_false_iff.2 hnear

/-- The elements of a cluster are not far from its first one. -/
theorem near_clusters (list : List α) : ∀ cluster ∈ clusters far list,
    ∃ head tail, cluster = head :: tail ∧ ∀ a ∈ tail, far head a = false := by
  cases list with
  | nil => exact nofun
  | cons a rest => exact near_clustersFrom nofun rest

/-- The first element of one cluster is far from that of the other. -/
def Apart (far : α → α → Bool) (left right : List α) : Prop :=
  ∀ a ∈ left.head?, ∀ b ∈ right.head?, far a b = true

theorem apart_clustersFrom (first : α) (others list : List α) :
    (clustersFrom far first others list).IsChain (Apart far) ∧
      ((clustersFrom far first others list).head?.bind List.head?) = some first := by
  induction list generalizing first others with
  | nil => exact ⟨.singleton _, rfl⟩
  | cons a rest ih =>
    unfold clustersFrom
    split
    · rename_i hfar
      obtain ⟨hchain, hhead⟩ := ih a []
      refine ⟨?_, rfl⟩
      cases hclusters : clustersFrom far a [] rest with
      | nil => exact .singleton _
      | cons cluster more =>
        rw [hclusters] at hchain hhead
        refine .cons_cons ?_ hchain
        intro b hb c hc
        have hcluster : cluster.head? = some a := hhead
        obtain rfl : first = b := Option.some.inj hb
        obtain rfl := Option.some.inj (hcluster.symm.trans hc)
        exact hfar
    · exact ih first _

/-- Clusters that follow one another are apart. -/
theorem apart_clusters (list : List α) : (clusters far list).IsChain (Apart far) := by
  cases list with
  | nil => exact .nil
  | cons a rest => exact (apart_clustersFrom a [] rest).1

/-- Every element is a leader or comes behind a leader that it is not far from. -/
theorem exists_leader {R : α → α → Prop} {list : List α} (hlist : list.Pairwise R) :
    ∀ a ∈ list, ∃ leader ∈ leaders far list, leader = a ∨ (R leader a ∧ far leader a = false) := by
  cases list with
  | nil => exact nofun
  | cons first rest =>
    -- The current leader stands in front of what is left.
    have hrest : ∀ (leader : α) (rest : List α), (leader :: rest).Pairwise R →
        ∀ a ∈ rest, ∃ other ∈ leader :: leadersFrom far leader rest,
          other = a ∨ (R other a ∧ far other a = false) := by
      intro leader rest
      induction rest generalizing leader with
      | nil => exact fun _ => nofun
      | cons b rest ih =>
        intro horder a ha
        obtain ⟨hleader, hb, hmore⟩ : (∀ a ∈ b :: rest, R leader a) ∧ (∀ a ∈ rest, R b a) ∧
            rest.Pairwise R := by
          simpa [List.pairwise_cons] using horder
        unfold leadersFrom
        split
        · rcases List.mem_cons.1 ha with rfl | ha
          · exact ⟨a, by simp, .inl rfl⟩
          · obtain ⟨other, hother, hnear⟩ := ih b (List.pairwise_cons.2 ⟨hb, hmore⟩) a ha
            exact ⟨other, List.mem_cons_of_mem _ hother, hnear⟩
        · rename_i hnot
          rcases List.mem_cons.1 ha with rfl | ha
          · exact ⟨leader, List.mem_cons_self,
              .inr ⟨hleader a List.mem_cons_self, Bool.eq_false_iff.2 hnot⟩⟩
          · refine ih leader (List.pairwise_cons.2 ⟨fun c hc => ?_, hmore⟩) a ha
            exact hleader c (List.mem_cons_of_mem _ hc)
    intro a ha
    rcases List.mem_cons.1 ha with rfl | ha
    · exact ⟨a, List.mem_cons_self, .inl rfl⟩
    · exact hrest first rest hlist a ha

/-! ## Runs -/

/-- The places at which runs of elements that pass a test start and stop, from a place on; `start`
is where the current run has started. Runs that are shorter than the least length are left out. -/
def runsFrom (test : α → Bool) (least : Nat) : Nat → Option Nat → List α → List (Nat × Nat)
  | place, start, [] => ended place start
  | place, start, a :: rest =>
    if test a then runsFrom test least (place + 1) (some (start.getD place)) rest
    else ended place start ++ runsFrom test least (place + 1) none rest
where
  /-- The current run, if there is one that is long enough. -/
  ended (place : Nat) (start : Option Nat) : List (Nat × Nat) :=
    (start.filter fun first => least ≤ place - first).toList.map fun first => (first, place)

/-- The places of the maximal runs. -/
def runs (test : α → Bool) (least : Nat) (list : List α) : List (Nat × Nat) :=
  runsFrom test least 0 none list

/-- From `start` up to `stop`, all elements pass the test, and no more can be added. -/
structure IsMaximalRun (test : α → Bool) (least : Nat) (list : List α) (start stop : Nat) :
    Prop where
  long : start + least ≤ stop
  within : stop ≤ list.length
  pass : ∀ place, start ≤ place → place < stop → ∃ a, list[place]? = some a ∧ test a = true
  before : ∀ place a, place + 1 = start → list[place]? = some a → test a = false
  behind : ∀ a, list[stop]? = some a → test a = false

variable {test : α → Bool} {least : Nat} {list : List α}

/-- What is known of the current run at a place: it passes the test and cannot be longer at its
start; without a run, the element in front of the place does not pass. -/
def Current (test : α → Bool) (list : List α) (place : Nat) : Option Nat → Prop
  | none => ∀ earlier a, earlier + 1 = place → list[earlier]? = some a → test a = false
  | some first => first < place ∧
    (∀ earlier, first ≤ earlier → earlier < place →
      ∃ a, list[earlier]? = some a ∧ test a = true) ∧
    ∀ earlier a, earlier + 1 = first → list[earlier]? = some a → test a = false

variable {current : Option Nat}

/-- A maximal run that stops at the place is the current one. -/
theorem Current.mem_ended_iff {place start stop : Nat} (hleast : 0 < least)
    (h : Current test list place current) (hplace : place ≤ list.length)
    (hbehind : ∀ a, list[place]? = some a → test a = false) :
    (start, stop) ∈ runsFrom.ended least place current ↔
      IsMaximalRun test least list start stop ∧ stop = place := by
  cases current with
  | none =>
    simp only [runsFrom.ended, Option.filter_none, Option.toList_none, List.map_nil,
      List.not_mem_nil, false_iff, not_and]
    rintro hrun rfl
    -- The last element of the run passes, but it does not.
    have hlong := hrun.long
    obtain ⟨a, ha, hpass⟩ := hrun.pass (stop - 1) (by omega) (by omega)
    rw [h (stop - 1) a (by omega) ha] at hpass
    cases hpass
  | some first =>
    obtain ⟨_, hpass, hbefore⟩ := h
    have hmem : (start, stop) ∈ runsFrom.ended least place (some first) ↔
        least ≤ place - first ∧ start = first ∧ stop = place := by
      unfold runsFrom.ended
      by_cases hlong : least ≤ place - first
      · rw [Option.filter_some, if_pos (by simpa using hlong)]
        simp [hlong, eq_comm]
      · simp [hlong]
    rw [hmem]
    constructor
    · rintro ⟨hlong, rfl, rfl⟩
      exact ⟨⟨by omega, hplace, hpass, hbefore, hbehind⟩, rfl⟩
    · rintro ⟨hrun, rfl⟩
      have hlong := hrun.long
      -- Both runs are maximal at their start, so they start together.
      have hstart : start = first := by
        rcases Nat.lt_trichotomy start first with hlt | heq | hgt
        · obtain ⟨a, ha, hpassed⟩ := hrun.pass (first - 1) (by omega) (by omega)
          rw [hbefore (first - 1) a (by omega) ha] at hpassed
          cases hpassed
        · exact heq
        · obtain ⟨a, ha, hpassed⟩ := hpass (start - 1) (by omega) (by omega)
          rw [hrun.before (start - 1) a (by omega) ha] at hpassed
          cases hpassed
      exact ⟨by omega, hstart, rfl⟩

/-- From a place on, exactly the maximal runs that do not stop before it are collected. -/
theorem mem_runsFrom_iff (hleast : 0 < least) (start stop : Nat) {seen rest : List α}
    (hlist : list = seen ++ rest) (h : Current test list seen.length current) :
    (start, stop) ∈ runsFrom test least seen.length current rest ↔
      IsMaximalRun test least list start stop ∧ seen.length ≤ stop := by
  induction rest generalizing seen current with
  | nil =>
    have hlength : list.length = seen.length := by simp [hlist]
    unfold runsFrom
    rw [h.mem_ended_iff hleast (Nat.le_of_eq hlength.symm) (by simp [hlist])]
    refine and_congr_right fun hrun => ?_
    have hwithin := hrun.within
    omega
  | cons a rest ih =>
    have hlength : seen.length < list.length := by simp [hlist]
    have hget : list[seen.length]? = some a := by simp [hlist]
    have hnext : list = (seen ++ [a]) ++ rest := by simp [hlist]
    unfold runsFrom
    split
    · rename_i hpass
      have hcurrent : Current test list (seen ++ [a]).length (some (current.getD seen.length)) := by
        rw [List.length_append, List.length_singleton]
        cases current with
        | none =>
          refine ⟨Nat.lt_succ_self _, fun earlier hle hlt => ?_, h⟩
          obtain rfl : earlier = seen.length := Nat.le_antisymm (Nat.le_of_lt_succ hlt) hle
          exact ⟨a, hget, hpass⟩
        | some first =>
          obtain ⟨hfirst, hpassed, hbefore⟩ := h
          refine ⟨Nat.lt_succ_of_lt hfirst, fun earlier hle hlt => ?_, hbefore⟩
          rcases Nat.lt_or_eq_of_le (Nat.le_of_lt_succ hlt) with hlt | rfl
          · exact hpassed earlier hle hlt
          · exact ⟨a, hget, hpass⟩
      have hmem := ih hnext hcurrent
      rw [List.length_append, List.length_singleton] at hmem
      rw [hmem]
      refine and_congr_right fun hrun => ⟨fun hle => by omega, fun hle => ?_⟩
      -- The element passes, so no maximal run stops in front of it.
      rcases Nat.lt_or_eq_of_le hle with hlt | rfl
      · exact hlt
      · rw [hrun.behind a hget] at hpass
        cases hpass
    · rename_i hnot
      have hfails : test a = false := Bool.eq_false_iff.2 hnot
      have hcurrent : Current test list (seen ++ [a]).length none := by
        intro earlier b hearlier hb
        rw [List.length_append, List.length_singleton] at hearlier
        obtain rfl : earlier = seen.length := by omega
        obtain rfl := Option.some.inj (hget.symm.trans hb)
        exact hfails
      have hmem := ih hnext hcurrent
      rw [List.length_append, List.length_singleton] at hmem
      have hend : (start, stop) ∈ runsFrom.ended least seen.length current ↔
          IsMaximalRun test least list start stop ∧ stop = seen.length := by
        refine h.mem_ended_iff hleast (Nat.le_of_lt hlength) ?_
        intro b hb
        obtain rfl := Option.some.inj (hget.symm.trans hb)
        exact hfails
      rw [List.mem_append, hmem, hend, ← and_or_left]
      refine and_congr_right fun _ => ?_
      omega

/-- The runs that are collected are the maximal runs. -/
theorem mem_runs_iff (hleast : 0 < least) {start stop : Nat} :
    (start, stop) ∈ runs test least list ↔ IsMaximalRun test least list start stop := by
  have hcurrent : Current test list ([] : List α).length none := nofun
  have hmem := mem_runsFrom_iff hleast start stop (List.nil_append list).symm hcurrent
  exact hmem.trans (and_iff_left (Nat.zero_le _))

theorem le_of_mem_runsFrom {place start stop : Nat} {rest : List α}
    (hcurrent : ∀ first ∈ current, first < place)
    (h : (start, stop) ∈ runsFrom test least place current rest) :
    current.getD place ≤ start ∧ place ≤ stop := by
  have hended : ∀ {place : Nat} {current : Option Nat},
      (start, stop) ∈ runsFrom.ended least place current →
        current = some start ∧ stop = place := by
    intro place current hmem
    unfold runsFrom.ended at hmem
    obtain ⟨first, hfirst, heq⟩ := List.mem_map.1 hmem
    obtain ⟨rfl, rfl⟩ := Prod.mk.inj heq
    have hsome := Option.mem_toList.1 hfirst
    exact ⟨(Option.filter_eq_some_iff.1 hsome).1, rfl⟩
  induction rest generalizing place current with
  | nil =>
    obtain ⟨rfl, rfl⟩ := hended h
    exact ⟨Nat.le_refl _, Nat.le_refl _⟩
  | cons a rest ih =>
    unfold runsFrom at h
    split at h
    · have hnext : ∀ first ∈ some (current.getD place), first < place + 1 := by
        rintro first hfirst
        obtain rfl := Option.some.inj hfirst
        cases current with
        | none => exact Nat.lt_succ_self _
        | some first => exact Nat.lt_succ_of_lt (hcurrent first rfl)
      obtain ⟨hstart, hstop⟩ := ih hnext h
      exact ⟨hstart, by omega⟩
    · rcases List.mem_append.1 h with h | h
      · obtain ⟨rfl, rfl⟩ := hended h
        exact ⟨Nat.le_refl _, Nat.le_refl _⟩
      · obtain ⟨hstart, _⟩ := ih (fun _ hfirst => absurd hfirst (Option.not_mem_none _)) h
        have hle : current.getD place ≤ place := by
          cases current with
          | none => exact Nat.le_refl _
          | some first => exact Nat.le_of_lt (hcurrent first rfl)
        exact ⟨by simp only [Option.getD_none] at hstart; omega, by omega⟩

/-- The runs are collected in order, with a gap between two of them. -/
theorem pairwise_runsFrom {place : Nat} (rest : List α) :
    (runsFrom test least place current rest).Pairwise fun left right => left.2 < right.1 := by
  have hended : ∀ {place : Nat} {current : Option Nat},
      (runsFrom.ended least place current).Pairwise fun left right => left.2 < right.1 := by
    intro place current
    unfold runsFrom.ended
    cases current.filter fun first => least ≤ place - first <;> simp
  induction rest generalizing place current with
  | nil => exact hended
  | cons a rest ih =>
    unfold runsFrom
    split
    · exact ih
    · refine List.pairwise_append.2 ⟨hended, ih, ?_⟩
      rintro ⟨start, stop⟩ hleft ⟨start', stop'⟩ hright
      have hplace : stop = place := by
        unfold runsFrom.ended at hleft
        obtain ⟨_, -, heq⟩ := List.mem_map.1 hleft
        exact (Prod.mk.inj heq).2.symm
      have hstart := (le_of_mem_runsFrom (fun _ h => absurd h (Option.not_mem_none _)) hright).1
      simp only [Option.getD_none] at hstart
      show stop < start'
      omega

theorem pairwise_runs (list : List α) :
    (runs test least list).Pairwise fun left right => left.2 < right.1 :=
  pairwise_runsFrom list

end Clusters

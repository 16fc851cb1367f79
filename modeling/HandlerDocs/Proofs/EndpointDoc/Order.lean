import HandlerDocs.EndpointDoc.Writer
import HandlerDocs.Proofs.Prelude

namespace HandlerDocs.EndpointDoc

section Ranked

variable {α : Type} (rank : α → ℕ)

def byRank (items : List α) : List α :=
  items.mergeSort fun a b ↦ decide (rank a ≤ rank b)

theorem rank_trans (a b c : α) (hab : decide (rank a ≤ rank b) = true)
    (hbc : decide (rank b ≤ rank c) = true) : decide (rank a ≤ rank c) = true := by
  simp only [decide_eq_true_eq] at *
  omega

theorem rank_total (a b : α) : (decide (rank a ≤ rank b) || decide (rank b ≤ rank a)) = true := by
  simp only [Bool.or_eq_true, decide_eq_true_eq]
  omega

theorem byRank_perm (items : List α) : (byRank rank items).Perm items :=
  List.mergeSort_perm _ _

theorem mem_byRank {items : List α} {a : α} : a ∈ byRank rank items ↔ a ∈ items :=
  (byRank_perm rank items).mem_iff

theorem pairwise_byRank (items : List α) :
    (byRank rank items).Pairwise fun a b ↦ rank a ≤ rank b := by
  have h := List.pairwise_mergeSort (rank_trans rank) (rank_total rank) items
  exact h.imp fun hab ↦ by simpa using hab

theorem byRank_eq_self {items : List α} (h : items.Pairwise fun a b ↦ rank a ≤ rank b) :
    byRank rank items = items :=
  List.mergeSort_of_pairwise (h.imp fun hab ↦ by simpa using hab)

theorem byRank_idem (items : List α) : byRank rank (byRank rank items) = byRank rank items :=
  byRank_eq_self rank (pairwise_byRank rank items)

/-- The sort is stable: within one rank nothing moves. -/
theorem filter_byRank (items : List α) (k : ℕ) :
    (byRank rank items).filter (rank · = k) = items.filter (rank · = k) := by
  have hsorted : (items.filter (rank · = k)).Pairwise
      fun a b ↦ decide (rank a ≤ rank b) = true := by
    refine List.pairwise_of_forall_mem_list fun a ha b hb ↦ ?_
    simp only [List.mem_filter, decide_eq_true_eq] at ha hb ⊢
    omega
  have hsub := (List.sublist_mergeSort (rank_trans rank) (rank_total rank) hsorted
    List.filter_sublist).filter (rank · = k)
  rw [List.filter_filter] at hsub
  simp only [Bool.and_self] at hsub
  refine (hsub.eq_of_length ?_).symm
  exact ((byRank_perm rank items).filter _).length_eq.symm

/-- A list that is ordered by rank is determined by what it holds of each rank. -/
theorem eq_of_filter_eq {as bs : List α} (ha : as.Pairwise fun a b ↦ rank a ≤ rank b)
    (hb : bs.Pairwise fun a b ↦ rank a ≤ rank b)
    (h : ∀ k, as.filter (rank · = k) = bs.filter (rank · = k)) : as = bs := by
  induction as generalizing bs with
  | nil =>
    cases bs with
    | nil => rfl
    | cons b bs => simpa using h (rank b)
  | cons a as ih =>
    cases bs with
    | nil => simpa using h (rank a)
    | cons b bs =>
      rw [List.pairwise_cons] at ha hb
      have hab : a ∈ (b :: bs).filter (rank · = rank a) := by simp [← h]
      have hba : b ∈ (a :: as).filter (rank · = rank b) := by simp [h]
      -- the two heads have one rank, so they head the same filtered list
      have hrank : rank a = rank b := by
        apply le_antisymm
        · rcases List.mem_cons.1 (List.mem_of_mem_filter hba) with hb' | hb'
          · rw [hb']
          · exact ha.1 b hb'
        · rcases List.mem_cons.1 (List.mem_of_mem_filter hab) with ha' | ha'
          · rw [ha']
          · exact hb.1 a ha'
      have hhead : a = b := by
        have hk := h (rank a)
        simp only [decide_true, List.filter_cons_of_pos, hrank] at hk
        exact (List.cons.inj hk).1
      subst hhead
      rw [ih ha.2 hb.2 fun k ↦ ?_]
      have hk := h k
      by_cases hak : rank a = k
      · simpa [hak] using hk
      · simpa [hak] using hk

theorem byRank_congr {as bs : List α}
    (h : ∀ k, as.filter (rank · = k) = bs.filter (rank · = k)) : byRank rank as = byRank rank bs :=
  eq_of_filter_eq rank (pairwise_byRank rank as) (pairwise_byRank rank bs) fun k ↦ by
    rw [filter_byRank, filter_byRank, h k]

/-- Sorting part of a list first changes nothing, not even when some of it is left out. -/
theorem byRank_append_filter_byRank (as bs : List α) (p : α → Bool) :
    byRank rank (as ++ (byRank rank bs).filter p) = byRank rank (as ++ bs.filter p) := by
  refine byRank_congr rank fun k ↦ ?_
  rw [List.filter_append, List.filter_append, List.filter_comm, filter_byRank, List.filter_comm]

end Ranked

end HandlerDocs.EndpointDoc

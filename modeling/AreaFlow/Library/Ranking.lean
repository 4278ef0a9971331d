import AreaFlow.Library.GoStrings

namespace Go

/-- Strings are ordered byte by byte. -/
instance : LinearOrder GoString where
  le_refl := List.le_refl
  le_trans _ _ _ := List.le_trans
  le_antisymm _ _ := List.le_antisymm
  le_total := List.le_total
  lt_iff_le_not_ge a b := by
    constructor
    · intro less
      exact ⟨List.le_of_lt less, List.not_le.mpr less⟩
    · rintro ⟨-, more⟩
      exact List.not_le.mp more
  toDecidableLE := inferInstance
  compare first second := compareOfLessAndEq first second

end Go

namespace Ranking

variable {A K : Type} [LinearOrder K] {rank : A → K} {items others : List A}

/-- The items are sorted by their ranks. Items of one rank keep their order. -/
def sortBy (rank : A → K) (items : List A) : List A := items.insertionSort fun first second => rank first ≤ rank second

instance total_rank : Std.Total fun first second : A => rank first ≤ rank second := ⟨fun _ _ => le_total _ _⟩

instance trans_rank : IsTrans A fun first second : A => rank first ≤ rank second := ⟨fun _ _ _ => le_trans⟩

theorem sortBy_perm (rank : A → K) (items : List A) : (sortBy rank items).Perm items := List.perm_insertionSort _ items

theorem sortBy_pairwise (rank : A → K) (items : List A) :
    (sortBy rank items).Pairwise fun first second => rank first ≤ rank second :=
  List.pairwise_insertionSort _ items

/-- Items with different ranks are strictly sorted. -/
theorem sortBy_strict (distinct : (items.map rank).Nodup) :
    (sortBy rank items).Pairwise fun first second => rank first < rank second := by
  have different : ((sortBy rank items).map rank).Nodup := ((sortBy_perm rank items).map rank).nodup_iff.mpr distinct
  rw [List.Nodup, List.pairwise_map] at different
  exact (sortBy_pairwise rank items).imp₂ (fun _ _ weak other => lt_of_le_of_ne weak other) different

/-- The order of the items before the sort does not matter if their ranks are different. -/
theorem sortBy_eq_of_perm (distinct : (items.map rank).Nodup) (reordered : others.Perm items) :
    sortBy rank others = sortBy rank items := by
  have otherDistinct : (others.map rank).Nodup := (reordered.map rank).nodup_iff.mpr distinct
  apply List.Perm.eq_of_pairwise _ (sortBy_strict otherDistinct) (sortBy_strict distinct)
  · exact (sortBy_perm rank others).trans (reordered.trans (sortBy_perm rank items).symm)
  · intro first second _ _ less more
    exact absurd more (lt_asymm less)

end Ranking

import TranscodingEngines.Proofs.FilePath.Absolute

/-!
# The order of paths

Two paths are the same if they have the same front and the same proper pieces, so slashes that are
repeated or stand at the end do not count, and neither do dots behind the front. The order of paths
is total, and two paths that are not the same come one before the other.
-/

set_option autoImplicit false

namespace TranscodingEngines.FilePath

/-! ## Paths that are the same -/

theorem same_iff_pieces {p q : FilePath} : p.same q = true ↔
    p.outline.front = q.outline.front ∧
      properPieces p.text.toList = properPieces q.text.toList := by
  rw [same_iff]
  constructor
  · intro h
    have hNames : (properPieces p.text.toList).map String.ofList
        = (properPieces q.text.toList).map String.ofList := by
      rw [← labels_eq, ← labels_eq, h]
    have hPieces := (List.map_inj_right fun _ _ => String.ofList_inj.mp).mp hNames
    rw [components_eq, components_eq, hPieces] at h
    have hFront := congrArg List.head? (List.append_cancel_right h)
    exact ⟨by simpa using hFront, hPieces⟩
  · rintro ⟨hFront, hPieces⟩
    rw [components_eq, components_eq, hFront, hPieces]

/-- The front of a path is seen before its second piece. -/
theorem front_slash {a : String} (h : a ≠ "") (rest : String) :
    (⟨a ++ "/" ++ rest⟩ : FilePath).outline.front = (⟨a⟩ : FilePath).outline.front := by
  obtain ⟨c, cs, hText⟩ := List.exists_cons_of_ne_nil (mt String.toList_eq_nil_iff.mp h)
  have hWhole : (a ++ "/" ++ rest).toList = c :: (cs ++ '/' :: rest.toList) := by simp [hText]
  rw [outline, outline, hText, hWhole]
  by_cases hRoot : c = '/'
  · simp [hRoot]
  · by_cases hDot : c = '.'
    · cases cs with
      | nil => simp [hDot]
      | cons d cs =>
        by_cases hSlash : d = '/'
        · simp [hDot, hSlash]
        · simp [hDot, hSlash]
    · simp [hRoot, hDot]

theorem properPieces_idle {idle : List Char} (h : isIdle idle = true) : properPieces idle = [] := by
  rcases isIdle_iff.mp h with rfl | rfl <;> rfl

/-- An idle piece between slashes does not count. -/
theorem same_idle (a b : String) {idle : String} (h : isIdle idle.toList = true) :
    (⟨a ++ "/" ++ idle ++ "/" ++ b⟩ : FilePath).same ⟨a ++ "/" ++ b⟩ = true := by
  refine same_iff_pieces.mpr ⟨?_, ?_⟩
  · by_cases ha : a = ""
    · rw [ha, outline, outline]
      simp
    · have hBehind : a ++ "/" ++ idle ++ "/" ++ b = a ++ "/" ++ (idle ++ "/" ++ b) := by
        simp only [String.append_assoc]
      rw [hBehind, front_slash ha, front_slash ha]
  · simp [properPieces_idle h]

theorem same_idle_end {a idle : String} (ha : a ≠ "") (h : isIdle idle.toList = true) :
    (⟨a ++ "/" ++ idle⟩ : FilePath).same ⟨a⟩ = true := by
  refine same_iff_pieces.mpr ⟨front_slash ha idle, ?_⟩
  simp [properPieces_idle h]

/-! ## The order -/

namespace Component

instance : Std.TransCmp order :=
  inferInstanceAs (Std.TransCmp (compareLex (compareOn rank) (compareOn label)))

instance : Std.LawfulEqCmp order where
  eq_of_compare {a b} h := by
    obtain ⟨hRank, hLabel⟩ := Ordering.then_eq_eq.mp h
    rw [Std.LawfulEqOrd.compare_eq_iff_eq] at hRank hLabel
    cases a <;> cases b <;> simp_all [rank, label]

end Component

theorem orderComponents_eq : orderComponents = List.compareLex Component.order := by
  funext as bs
  induction as generalizing bs with
  | nil => cases bs <;> rfl
  | cons a as ih =>
    cases bs with
    | nil => rfl
    | cons b bs => rw [orderComponents, ih, List.compareLex_cons_cons]

instance : Std.TransCmp orderComponents := by
  rw [orderComponents_eq]
  infer_instance

instance : Std.LawfulEqCmp orderComponents := by
  rw [orderComponents_eq]
  infer_instance

instance : Std.TransCmp order where
  eq_swap {p q} := by
    rw [order, order]
    exact Std.OrientedCmp.eq_swap
  isLE_trans {p q r} hpq hqr := by
    rw [order] at hpq hqr ⊢
    exact Std.TransCmp.isLE_trans hpq hqr

theorem order_eq_iff {p q : FilePath} : p.order q = .eq ↔ p.same q = true := by
  rw [order, same_iff, Std.LawfulEqCmp.compare_eq_iff_eq]

end TranscodingEngines.FilePath

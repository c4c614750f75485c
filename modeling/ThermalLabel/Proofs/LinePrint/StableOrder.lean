import Mathlib
import ThermalLabel.LinePrint.StableOrder
/-!
# What a stable order is

Ordering a list rearranges it. Where items are before each other as their keys are, the keys of the
result never fall, and items of the same key stand as they stood in the list.
-/

namespace ThermalLabel

variable {α β κ : Type} (before : α → α → Bool)

/-! ## Nothing is lost -/

theorem risingRun_append (last : α) (xs : List α) :
    (risingRun before last xs).1 ++ (risingRun before last xs).2 = xs := by
  induction xs generalizing last with
  | nil => rfl
  | cons a xs ih =>
    rw [risingRun]
    by_cases h : before a last = true
    · rw [if_pos h]
      rfl
    · rw [if_neg h]
      exact congrArg (a :: ·) (ih a)

theorem fallingRun_append (last : α) (xs : List α) :
    (fallingRun before last xs).1 ++ (fallingRun before last xs).2 = xs := by
  induction xs generalizing last with
  | nil => rfl
  | cons a xs ih =>
    rw [fallingRun]
    by_cases h : before a last = true
    · rw [if_pos h]
      exact congrArg (a :: ·) (ih a)
    · rw [if_neg h]
      rfl

theorem openingRun_perm (xs : List α) :
    ((openingRun before xs).1 ++ (openingRun before xs).2).Perm xs := by
  match xs with
  | [] => exact List.Perm.refl _
  | [a] => exact List.Perm.refl _
  | a :: b :: rest =>
    rw [openingRun]
    by_cases h : before b a = true
    · simp only [if_pos h]
      have happend := fallingRun_append before b rest
      calc ((a :: b :: (fallingRun before b rest).1).reverse ++ (fallingRun before b rest).2).Perm
            (a :: b :: (fallingRun before b rest).1 ++ (fallingRun before b rest).2) :=
            (List.reverse_perm _).append_right _
        _ = a :: b :: rest := by rw [List.cons_append, List.cons_append, happend]
    · simp only [if_neg h]
      have happend := risingRun_append before b rest
      rw [List.cons_append, List.cons_append, happend]

theorem insertOrdered_perm (xs : List α) (a : α) : (insertOrdered before xs a).Perm (a :: xs) := by
  unfold insertOrdered
  generalize insertionPoint before a xs 0 xs.length = i
  calc (xs.take i ++ a :: xs.drop i).Perm (a :: (xs.take i ++ xs.drop i)) := List.perm_middle
    _ = a :: xs := by rw [List.take_append_drop]

theorem foldl_insertOrdered_perm (run rest : List α) :
    (rest.foldl (insertOrdered before) run).Perm (run ++ rest) := by
  induction rest generalizing run with
  | nil => simp
  | cons a rest ih =>
    calc (rest.foldl (insertOrdered before) (insertOrdered before run a)).Perm
          (insertOrdered before run a ++ rest) := ih _
      List.Perm _ (a :: run ++ rest) := (insertOrdered_perm before run a).append_right rest
      List.Perm _ (run ++ a :: rest) := List.perm_middle.symm

theorem stableOrder_perm (xs : List α) : (stableOrder before xs).Perm xs :=
  (foldl_insertOrdered_perm before _ _).trans (openingRun_perm before xs)

/-! ## The order of items that stand for others -/

variable (f : β → α)

theorem risingRun_map (last : β) (xs : List β) :
    risingRun before (f last) (xs.map f) =
      ((risingRun (fun a b => before (f a) (f b)) last xs).1.map f,
        (risingRun (fun a b => before (f a) (f b)) last xs).2.map f) := by
  induction xs generalizing last with
  | nil => rfl
  | cons a xs ih =>
    rw [List.map_cons, risingRun, risingRun]
    by_cases h : before (f a) (f last) = true
    · simp [h]
    · simp [h, ih a]

theorem fallingRun_map (last : β) (xs : List β) :
    fallingRun before (f last) (xs.map f) =
      ((fallingRun (fun a b => before (f a) (f b)) last xs).1.map f,
        (fallingRun (fun a b => before (f a) (f b)) last xs).2.map f) := by
  induction xs generalizing last with
  | nil => rfl
  | cons a xs ih =>
    rw [List.map_cons, fallingRun, fallingRun]
    by_cases h : before (f a) (f last) = true
    · simp [h, ih a]
    · simp [h]

theorem openingRun_map (xs : List β) :
    openingRun before (xs.map f) =
      ((openingRun (fun a b => before (f a) (f b)) xs).1.map f,
        (openingRun (fun a b => before (f a) (f b)) xs).2.map f) := by
  match xs with
  | [] => rfl
  | [a] => rfl
  | a :: b :: rest =>
    rw [List.map_cons, List.map_cons, openingRun, openingRun]
    by_cases h : before (f b) (f a) = true
    · simp [h, fallingRun_map]
    · simp [h, risingRun_map]

theorem insertionPoint_map (a : β) (xs : List β) (low high : Nat) :
    insertionPoint before (f a) (xs.map f) low high =
      insertionPoint (fun a b => before (f a) (f b)) a xs low high := by
  fun_induction insertionPoint (fun a b => before (f a) (f b)) a xs low high with
  | case1 low high h middle b hb hbefore ih =>
    have hmiddle : (xs.map f)[low + (high - low) / 2]? = some (f b) :=
      List.getElem?_map.trans (congrArg (Option.map f) hb)
    rw [insertionPoint, if_pos h]
    simp only [hmiddle, if_pos hbefore]
    exact ih
  | case2 low high h middle b hb hbefore ih =>
    have hmiddle : (xs.map f)[low + (high - low) / 2]? = some (f b) :=
      List.getElem?_map.trans (congrArg (Option.map f) hb)
    rw [insertionPoint, if_pos h]
    simp only [hmiddle, if_neg hbefore]
    exact ih
  | case3 low high h middle hnone =>
    have hmiddle : (xs.map f)[low + (high - low) / 2]? = none :=
      List.getElem?_map.trans (congrArg (Option.map f) hnone)
    rw [insertionPoint, if_pos h]
    simp only [hmiddle]
  | case4 low high h => rw [insertionPoint, if_neg h]

theorem insertOrdered_map (xs : List β) (a : β) :
    insertOrdered before (xs.map f) (f a) =
      (insertOrdered (fun a b => before (f a) (f b)) xs a).map f := by
  simp only [insertOrdered, insertionPoint_map, List.length_map, List.map_append, List.map_cons,
    List.map_take, List.map_drop]

theorem stableOrder_map (xs : List β) :
    stableOrder before (xs.map f) =
      (stableOrder (fun a b => before (f a) (f b)) xs).map f := by
  have hfoldl (run rest : List β) : (rest.map f).foldl (insertOrdered before) (run.map f) =
      (rest.foldl (insertOrdered fun a b => before (f a) (f b)) run).map f := by
    induction rest generalizing run with
    | nil => rfl
    | cons a rest ih => rw [List.map_cons, List.foldl_cons, List.foldl_cons, insertOrdered_map, ih]
  simp only [stableOrder, openingRun_map, hfoldl]

/-- Only how the items of the list stand to each other counts. -/
theorem stableOrder_congr {before before' : α → α → Bool} {xs : List α}
    (h : ∀ a ∈ xs, ∀ b ∈ xs, before a b = before' a b) :
    stableOrder before xs = stableOrder before' xs := by
  have hsame : (fun a b : { x // x ∈ xs } => before a.1 b.1) = fun a b => before' a.1 b.1 := by
    funext a b
    exact h a.1 a.2 b.1 b.2
  have hattached : xs = xs.attach.map Subtype.val := by simp
  calc stableOrder before xs = stableOrder before (xs.attach.map Subtype.val) := by
        rw [← hattached]
    _ = (stableOrder (fun a b : { x // x ∈ xs } => before' a.1 b.1) xs.attach).map Subtype.val := by
        rw [stableOrder_map, hsame]
    _ = stableOrder before' xs := by rw [← stableOrder_map before' Subtype.val, ← hattached]

/-! ## Keys never fall, and ties stay -/

section

variable [LinearOrder κ] (key : α → κ) (R : α → α → Prop)

def keyBefore (a b : α) : Bool := decide (key a < key b)

/-- Keys rise, or stay the same between items that are related in that order. -/
def InOrder (xs : List α) : Prop := xs.Pairwise fun a b => key a < key b ∨ key a = key b ∧ R a b

variable {key} {R} {xs run rest : List α} {a last : α}

theorem InOrder.pairwise_le (h : InOrder key R xs) : xs.Pairwise fun a b => key a ≤ key b :=
  h.imp fun hab => hab.elim le_of_lt fun htie => htie.1.le

theorem inOrder_of_pairwise_le (hkey : xs.Pairwise fun a b => key a ≤ key b)
    (hR : xs.Pairwise R) : InOrder key R xs :=
  hkey.imp₂ (fun _ _ hle hab => hle.lt_or_eq.imp_right fun heq => ⟨heq, hab⟩) hR

/-- Halving keeps what is not above the item to the left and what is above it to the right. -/
theorem insertionPoint_spec (hxs : xs.Pairwise fun a b => key a ≤ key b) (low high : Nat)
    (hlow : ∀ x ∈ xs.take low, key x ≤ key a) (hhigh : ∀ x ∈ xs.drop high, key a < key x)
    (hle : low ≤ high) (hlength : high ≤ xs.length) :
    (∀ x ∈ xs.take (insertionPoint (keyBefore key) a xs low high), key x ≤ key a) ∧
      ∀ x ∈ xs.drop (insertionPoint (keyBefore key) a xs low high), key a < key x := by
  fun_induction insertionPoint (keyBefore key) a xs low high with
  | case1 low high h middle b hb hbefore ih =>
    -- The item is before the middle one, and so before all that follow it.
    have hmiddle : middle < high := by omega
    apply ih hlow _ (by omega) (by omega)
    obtain ⟨hbound, hget⟩ := List.getElem?_eq_some_iff.1 hb
    have hdrop : xs.drop middle = b :: xs.drop (middle + 1) := by
      rw [List.drop_eq_getElem_cons hbound, hget]
    have hpairwise := hxs.sublist (List.drop_sublist middle xs)
    rw [hdrop] at hpairwise ⊢
    have hab : key a < key b := of_decide_eq_true hbefore
    intro x hx
    rcases List.mem_cons.1 hx with rfl | hx
    · exact hab
    · exact hab.trans_le (List.rel_of_pairwise_cons hpairwise hx)
  | case2 low high h middle b hb hbefore ih =>
    -- The middle one is not above the item, nor is anything in front of it.
    have hmiddle : middle < high := by omega
    apply ih _ hhigh (by omega) hlength
    have htake : xs.take (middle + 1) = xs.take middle ++ [b] := by
      rw [List.take_add_one, hb]
      rfl
    have hpairwise := hxs.sublist (List.take_sublist (middle + 1) xs)
    rw [htake] at hpairwise ⊢
    have hba : key b ≤ key a := not_lt.1 (of_decide_eq_false (Bool.not_eq_true _ ▸ hbefore))
    intro x hx
    rcases List.mem_append.1 hx with hx | hx
    · exact ((List.pairwise_append.1 hpairwise).2.2 x hx b (List.mem_singleton_self b)).trans hba
    · rw [List.mem_singleton.1 hx]
      exact hba
  | case3 low high h middle hnone =>
    have hbeyond := List.getElem?_eq_none_iff.1 hnone
    omega
  | case4 low high h =>
    have hsame : low = high := by omega
    exact ⟨hlow, hsame ▸ hhigh⟩

theorem inOrder_insertOrdered (h : InOrder key R xs) (ha : ∀ x ∈ xs, R x a) :
    InOrder key R (insertOrdered (keyBefore key) xs a) := by
  obtain ⟨hbelow, habove⟩ := insertionPoint_spec (a := a) h.pairwise_le 0 xs.length
    (by simp) (by simp) (Nat.zero_le _) le_rfl
  unfold insertOrdered
  generalize insertionPoint (keyBefore key) a xs 0 xs.length = i at hbelow habove
  have happend := h
  rw [← List.take_append_drop i xs, InOrder, List.pairwise_append] at happend
  obtain ⟨htake, hdrop, hacross⟩ := happend
  refine List.pairwise_append.2 ⟨htake, List.pairwise_cons.2 ⟨fun y hy => Or.inl (habove y hy),
    hdrop⟩, ?_⟩
  intro x hx y hy
  rcases List.mem_cons.1 hy with rfl | hy
  · exact (hbelow x hx).lt_or_eq.imp_right fun heq => ⟨heq, ha x (List.mem_of_mem_take hx)⟩
  · exact hacross x hx y hy

theorem inOrder_foldl_insertOrdered (hrun : InOrder key R run)
    (hacross : ∀ x ∈ run, ∀ y ∈ rest, R x y) (hrest : rest.Pairwise R) :
    InOrder key R (rest.foldl (insertOrdered (keyBefore key)) run) := by
  induction rest generalizing run with
  | nil => exact hrun
  | cons a rest ih =>
    obtain ⟨ha, hrest⟩ := List.pairwise_cons.1 hrest
    apply ih
    · exact inOrder_insertOrdered hrun fun x hx => hacross x hx a List.mem_cons_self
    · intro x hx y hy
      rcases List.mem_cons.1 ((insertOrdered_perm _ run a).mem_iff.1 hx) with rfl | hx
      · exact ha y hy
      · exact hacross x hx y (List.mem_cons_of_mem a hy)
    · exact hrest

theorem pairwise_risingRun (key : α → κ) (last : α) (xs : List α) :
    (last :: (risingRun (keyBefore key) last xs).1).Pairwise fun a b => key a ≤ key b := by
  induction xs generalizing last with
  | nil => exact List.pairwise_singleton _ last
  | cons a xs ih =>
    rw [risingRun]
    by_cases h : keyBefore key a last = true
    · rw [if_pos h]
      exact List.pairwise_singleton _ last
    · rw [if_neg h]
      have hle : key last ≤ key a := not_lt.1 (of_decide_eq_false (Bool.not_eq_true _ ▸ h))
      refine List.pairwise_cons.2 ⟨?_, ih a⟩
      intro x hx
      rcases List.mem_cons.1 hx with rfl | hx
      · exact hle
      · exact hle.trans (List.rel_of_pairwise_cons (ih a) hx)

theorem pairwise_fallingRun (key : α → κ) (last : α) (xs : List α) :
    (last :: (fallingRun (keyBefore key) last xs).1).Pairwise fun a b => key b < key a := by
  induction xs generalizing last with
  | nil => exact List.pairwise_singleton _ last
  | cons a xs ih =>
    rw [fallingRun]
    by_cases h : keyBefore key a last = true
    · rw [if_pos h]
      have hlt : key a < key last := of_decide_eq_true h
      refine List.pairwise_cons.2 ⟨?_, ih a⟩
      intro x hx
      rcases List.mem_cons.1 hx with rfl | hx
      · exact hlt
      · exact (List.rel_of_pairwise_cons (ih a) hx).trans hlt
    · rw [if_neg h]
      exact List.pairwise_singleton _ last

/-- A rising run is in order as it stands, a falling one once it is reversed. -/
theorem openingRun_spec (key : α → κ) (h : xs.Pairwise R) :
    InOrder key R (openingRun (keyBefore key) xs).1 ∧
      (∀ x ∈ (openingRun (keyBefore key) xs).1, ∀ y ∈ (openingRun (keyBefore key) xs).2, R x y) ∧
      (openingRun (keyBefore key) xs).2.Pairwise R := by
  match xs, h with
  | [], _ => exact ⟨List.Pairwise.nil, by simp [openingRun], List.Pairwise.nil⟩
  | [a], _ => exact ⟨List.pairwise_singleton _ a, by simp [openingRun], List.Pairwise.nil⟩
  | a :: b :: rest, h =>
    rw [openingRun]
    by_cases hfall : keyBefore key b a = true
    · -- Nothing ties within a falling run, so reversing it keeps all ties as they were.
      simp only [if_pos hfall]
      have hrun := pairwise_fallingRun key a (b :: rest)
      rw [fallingRun, if_pos hfall] at hrun
      rw [← fallingRun_append (keyBefore key) b rest, ← List.cons_append, ← List.cons_append] at h
      obtain ⟨-, hrest, hacross⟩ := List.pairwise_append.1 h
      refine ⟨List.pairwise_reverse.2 (hrun.imp Or.inl), ?_, hrest⟩
      intro x hx y hy
      exact hacross x (List.mem_reverse.1 hx) y hy
    · simp only [if_neg hfall]
      have hrun := pairwise_risingRun key a (b :: rest)
      rw [risingRun, if_neg hfall] at hrun
      rw [← risingRun_append (keyBefore key) b rest, ← List.cons_append, ← List.cons_append] at h
      obtain ⟨hR, hrest, hacross⟩ := List.pairwise_append.1 h
      exact ⟨inOrder_of_pairwise_le hrun hR, hacross, hrest⟩

/-- The result is in order, and what ties in it is related as it was in the list. -/
theorem inOrder_stableOrder (key : α → κ) (h : xs.Pairwise R) :
    InOrder key R (stableOrder (keyBefore key) xs) := by
  obtain ⟨hrun, hacross, hrest⟩ := openingRun_spec key h
  exact inOrder_foldl_insertOrdered hrun hacross hrest

/-- Items of one key stand as they stood in the list. -/
theorem filter_stableOrder (key : α → κ) (k : κ) (xs : List α) :
    (stableOrder (keyBefore key) xs).filter (fun a => key a = k) =
      xs.filter fun a => key a = k := by
  -- Each item carries its place in the list, by which the items of one key are in order.
  have hplaces : xs.zipIdx.Pairwise fun p q => p.2 < q.2 := by
    rw [← List.pairwise_map (R := (· < ·)), List.zipIdx_map_snd]
    exact List.pairwise_lt_range' ..
  have horder := inOrder_stableOrder (key ∘ Prod.fst) hplaces
  have hperm := stableOrder_perm (keyBefore (key ∘ Prod.fst)) xs.zipIdx
  have hsame : (stableOrder (keyBefore (key ∘ Prod.fst)) xs.zipIdx).filter
      (fun p => key p.1 = k) = xs.zipIdx.filter fun p => key p.1 = k := by
    have hordered : ((stableOrder (keyBefore (key ∘ Prod.fst)) xs.zipIdx).filter
        fun p => key p.1 = k).Pairwise fun p q => p.2 < q.2 := by
      refine List.pairwise_filter.2 (horder.imp fun {p q} hpq hp hq => ?_)
      obtain hlt | ⟨-, hlt⟩ := hpq
      · exact absurd ((of_decide_eq_true hp).trans (of_decide_eq_true hq).symm) hlt.ne
      · exact hlt
    refine List.Perm.eq_of_pairwise ?_ hordered (hplaces.sublist List.filter_sublist)
      (hperm.filter _)
    exact fun p q _ _ hpq hqp => absurd hpq hqp.asymm
  have htagged : xs = xs.zipIdx.map Prod.fst := (List.zipIdx_map_fst 0 xs).symm
  calc (stableOrder (keyBefore key) xs).filter (fun a => key a = k)
      = ((stableOrder (keyBefore (key ∘ Prod.fst)) xs.zipIdx).filter
          fun p => key p.1 = k).map Prod.fst := by
        conv_lhs => rw [htagged, stableOrder_map, List.filter_map]
        rfl
    _ = (xs.zipIdx.filter fun p => key p.1 = k).map Prod.fst := by rw [hsame]
    _ = xs.filter fun a => key a = k := by
        conv_rhs => rw [htagged, List.filter_map]
        rfl

/-- A list in order of a key: the items of another list, those of one key as they stood there. -/
structure StablyOrdered (key : α → κ) (ordered xs : List α) : Prop where
  perm : ordered.Perm xs
  rising : ordered.Pairwise fun a b => key a ≤ key b
  ties : ∀ k, ordered.filter (fun a => key a = k) = xs.filter fun a => key a = k

theorem stablyOrdered_stableOrder (key : α → κ) (xs : List α) :
    StablyOrdered key (stableOrder (keyBefore key) xs) xs where
  perm := stableOrder_perm _ xs
  rising := (inOrder_stableOrder key (List.pairwise_of_forall fun _ _ => trivial)).pairwise_le
  ties k := filter_stableOrder key k xs

end

end ThermalLabel

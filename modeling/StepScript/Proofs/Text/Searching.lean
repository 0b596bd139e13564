import StepScript.Text.Search

/-!
# What stands between the occurrences of a pattern

* `FirstAt d t i` says that the first occurrence of `d` in `t` is at the place `i`. It is what is found
  (`indexOf?_eq_some_iff`), and nothing is found where `d` does not occur at all (`indexOf?_eq_none_iff`).
* `Cut d t ps` says that `ps` is what stands between the occurrences of `d` in `t`, taken from the left: up to the first
  one, and then what is cut out of the text behind it. The pieces of a text are cut so (`cut_pieces`); joined with `d`
  they are the text (`Cut.intercalate`), and no piece contains `d` (`Cut.not_isInfix`).
-/

namespace StepScript.Text

variable {d t : List Char} {i : Nat}

/-- The first occurrence of `d` in `t` is at the place `i`. -/
structure FirstAt (d t : List Char) (i : Nat) : Prop where
  here : d <+: t.drop i
  before : ∀ k < i, ¬d <+: t.drop k

section First

theorem isInfix_iff_exists : d <:+: t ↔ ∃ k, d <+: t.drop k := by
  rw [List.infix_iff_prefix_suffix]
  constructor
  · rintro ⟨u, hd, ht⟩
    exact ⟨t.length - u.length, (List.suffix_iff_eq_drop.1 ht) ▸ hd⟩
  · rintro ⟨k, hk⟩
    exact ⟨t.drop k, hk, List.drop_suffix k t⟩

/-- What is not empty occurs before the end. -/
theorem lt_length_of_prefix (hd : d ≠ []) {k : Nat} (h : d <+: t.drop k) : k < t.length := by
  have hlength := h.length_le
  have hpos := List.length_pos_iff.2 hd
  rw [List.length_drop] at hlength
  omega

theorem FirstAt.unique {j : Nat} (h : FirstAt d t i) (h' : FirstAt d t j) : i = j := by
  rcases Nat.lt_trichotomy i j with hlt | heq | hlt
  · exact absurd h.here (h'.before i hlt)
  · exact heq
  · exact absurd h'.here (h.before j hlt)

/-- Behind a character at which `d` does not occur, its first occurrence is one place nearer. -/
theorem firstAt_cons {c : Char} (hn : ¬d <+: c :: t) : FirstAt d (c :: t) (i + 1) ↔ FirstAt d t i := by
  constructor
  · rintro ⟨hhere, hbefore⟩
    exact ⟨hhere, fun k hk => hbefore (k + 1) (by omega)⟩
  · rintro ⟨hhere, hbefore⟩
    refine ⟨hhere, fun k hk => ?_⟩
    cases k with
    | zero => exact hn
    | succ k => exact hbefore k (by omega)

theorem firstAt_zero_iff : FirstAt d t 0 ↔ d <+: t :=
  ⟨fun h => h.here, fun h => ⟨h, fun k hk => absurd hk (Nat.not_lt_zero k)⟩⟩

theorem indexFrom?_eq_some_iff {place j : Nat} :
    indexFrom? d place t = some j ↔ ∃ k, j = place + k ∧ FirstAt d t k := by
  induction t generalizing place with
  | nil =>
    simp only [indexFrom?, List.isPrefixOf_iff_prefix]
    constructor
    · intro h
      split at h
      · rename_i hd
        exact ⟨0, (Option.some.inj h).symm, firstAt_zero_iff.2 hd⟩
      · cases h
    · rintro ⟨k, rfl, hk⟩
      have hd : d <+: [] := by simpa using hk.here
      obtain rfl : k = 0 := hk.unique (firstAt_zero_iff.2 hd)
      rw [if_pos hd]
      rfl
  | cons c cs ih =>
    simp only [indexFrom?, List.isPrefixOf_iff_prefix]
    by_cases hd : d <+: c :: cs
    · rw [if_pos hd]
      constructor
      · intro h
        exact ⟨0, (Option.some.inj h).symm, firstAt_zero_iff.2 hd⟩
      · rintro ⟨k, rfl, hk⟩
        obtain rfl : k = 0 := hk.unique (firstAt_zero_iff.2 hd)
        rfl
    · rw [if_neg hd, ih]
      constructor
      · rintro ⟨k, rfl, hk⟩
        exact ⟨k + 1, by omega, (firstAt_cons hd).2 hk⟩
      · rintro ⟨k, rfl, hk⟩
        cases k with
        | zero => exact absurd hk.here hd
        | succ k => exact ⟨k, by omega, (firstAt_cons hd).1 hk⟩

/-- **What is found is the first occurrence.** -/
theorem indexOf?_eq_some_iff : indexOf? d t = some i ↔ FirstAt d t i := by
  rw [indexOf?, indexFrom?_eq_some_iff]
  simp

/-- Where `d` occurs, it occurs a first time. -/
theorem exists_firstAt (h : d <:+: t) : ∃ i, FirstAt d t i := by
  obtain ⟨k, hk⟩ := isInfix_iff_exists.1 h
  induction k using Nat.strongRecOn with
  | ind k ih =>
    by_cases hbefore : ∀ j < k, ¬d <+: t.drop j
    · exact ⟨k, hk, hbefore⟩
    · obtain ⟨j, hj⟩ := Classical.not_forall.1 hbefore
      obtain ⟨hlt, hd⟩ := Classical.not_imp.1 hj
      exact ih j hlt (Classical.not_not.1 hd)

theorem FirstAt.isInfix (h : FirstAt d t i) : d <:+: t := isInfix_iff_exists.2 ⟨i, h.here⟩

/-- **Nothing is found where `d` does not occur.** -/
theorem indexOf?_eq_none_iff : indexOf? d t = none ↔ ¬d <:+: t := by
  constructor
  · intro h hd
    obtain ⟨i, hi⟩ := exists_firstAt hd
    rw [indexOf?_eq_some_iff.2 hi] at h
    cases h
  · intro h
    cases hi : indexOf? d t with
    | none => rfl
    | some i => exact absurd (indexOf?_eq_some_iff.1 hi).isInfix h

end First

/-! ## Pieces -/

/-- What stands between the occurrences of `d` in a text, taken from the left. -/
inductive Cut (d : List Char) : List Char → List (List Char) → Prop
  | last {t : List Char} : ¬d <:+: t → Cut d t [t]
  | first {p rest : List Char} {ps : List (List Char)} : FirstAt d (p ++ (d ++ rest)) p.length → Cut d rest ps →
      Cut d (p ++ (d ++ rest)) (p :: ps)

section Pieces

variable {ps : List (List Char)}

/-- The pieces of the rest, behind a piece in which `d` does not begin to occur. -/
theorem cut_piecesFrom (hd : d ≠ []) (piece : List Char) (done : List (List Char)) (rest : List Char)
    (hbefore : ∀ k < piece.length, ¬d <+: (piece.reverse ++ rest).drop k) :
    ∃ ps, piecesFrom d piece done rest = done.reverse ++ ps ∧ Cut d (piece.reverse ++ rest) ps := by
  fun_induction piecesFrom d piece done rest with
  | case1 piece done =>
    refine ⟨[piece.reverse], by simp, ?_⟩
    rw [List.append_nil] at hbefore ⊢
    refine .last fun h => ?_
    obtain ⟨k, hk⟩ := isInfix_iff_exists.1 h
    have hlt := lt_length_of_prefix hd hk
    rw [List.length_reverse] at hlt
    exact hbefore k hlt hk
  | case2 piece done c cs hhit ih =>
    obtain ⟨ps, hps, hcut⟩ := ih fun k hk => absurd hk (Nat.not_lt_zero k)
    rw [List.unattach_reverse, List.unattach_attach] at hps
    have hprefix := List.isPrefixOf_iff_prefix.1 hhit.2
    have hrest : c :: cs = d ++ cs.drop (d.length - 1) := by
      obtain ⟨e, d', rfl⟩ := List.exists_cons_of_ne_nil hd
      obtain ⟨rest, hrest⟩ := hprefix
      rw [← hrest]
      obtain ⟨-, rfl⟩ := List.cons.inj hrest
      simp
    refine ⟨piece.reverse :: ps, by rw [hps]; simp, ?_⟩
    rw [hrest] at hbefore hprefix ⊢
    have hlength : piece.reverse.length = piece.length := List.length_reverse
    refine .first ⟨?_, ?_⟩ hcut
    · rw [List.drop_left]
      exact hprefix
    · rw [hlength]
      exact hbefore
  | case3 piece done c cs hmiss ih =>
    have htext : (c :: piece).reverse ++ cs = piece.reverse ++ c :: cs := by simp
    rw [htext] at ih
    refine ih fun k hk => ?_
    rcases Nat.lt_succ_iff_lt_or_eq.1 hk with hlt | rfl
    · exact hbefore k hlt
    · have hdrop : (piece.reverse ++ c :: cs).drop piece.length = c :: cs := by
        rw [← List.length_reverse, List.drop_left]
      rw [hdrop]
      exact fun h => hmiss ⟨hd, List.isPrefixOf_iff_prefix.2 h⟩

/-- **The pieces of a text are what stands between the occurrences.** -/
theorem cut_pieces (hd : d ≠ []) (t : List Char) : Cut d t (pieces d t) := by
  obtain ⟨ps, hps, hcut⟩ := cut_piecesFrom hd [] [] t fun k hk => absurd hk (Nat.not_lt_zero k)
  have hpieces : pieces d t = ps := hps
  rw [hpieces]
  exact hcut

theorem Cut.ne_nil (h : Cut d t ps) : ps ≠ [] := by
  cases h <;> exact List.cons_ne_nil _ _

/-- **Joined with what stands between them, the pieces are the text.** -/
theorem Cut.intercalate (h : Cut d t ps) : List.intercalate d ps = t := by
  induction h with
  | last _ => simp
  | @first p rest ps _ hcut ih =>
    obtain ⟨q, qs, rfl⟩ := List.exists_cons_of_ne_nil hcut.ne_nil
    rw [List.intercalate_cons_cons, ih, List.append_assoc]

/-- **No piece contains what the text is cut at.** -/
theorem Cut.not_isInfix (hd : d ≠ []) (h : Cut d t ps) {p : List Char} (hp : p ∈ ps) : ¬d <:+: p := by
  induction h with
  | last hn =>
    rw [List.mem_singleton.1 hp]
    exact hn
  | @first q rest ps hfirst _ ih =>
    rcases List.mem_cons.1 hp with rfl | hp
    · intro hwithin
      obtain ⟨k, hk⟩ := isInfix_iff_exists.1 hwithin
      have hlt := lt_length_of_prefix hd hk
      -- An occurrence inside the piece is one before the first.
      refine hfirst.before k hlt ?_
      rw [List.drop_append_of_le_length (Nat.le_of_lt hlt)]
      exact hk.trans (List.prefix_append _ _)
    · exact ih hp

/-- There is more than one piece where there is something to cut at. -/
theorem Cut.one_lt_iff (h : Cut d t ps) : 1 < ps.length ↔ d <:+: t := by
  cases h with
  | last hn => simpa using hn
  | @first p rest ps hfirst hcut =>
    have hpos := List.length_pos_iff.2 hcut.ne_nil
    have : 1 < (p :: ps).length := by
      rw [List.length_cons]
      omega
    exact ⟨fun _ => hfirst.isInfix, fun _ => this⟩

/-- The first piece ends at the first occurrence. -/
theorem Cut.firstAt (h : Cut d t ps) (hd : d <:+: t) : FirstAt d t (ps.headD []).length := by
  cases h with
  | last hn => exact absurd hd hn
  | first hfirst _ => exact hfirst

end Pieces

end StepScript.Text

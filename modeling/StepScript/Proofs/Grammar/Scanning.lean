import StepScript.Token.Scan

/-!
# Scanning within a bound

Every item of a text takes at least one character, so a text is scanned within as many items as it has characters. The
scan that counts its items down (`scanWithin`) goes by the count alone and can be evaluated where the other one cannot.
-/

namespace StepScript

/-- The tokens of the rest of a text, at most `bound` items of it. -/
def scanWithin : (bound : Nat) → (pos line : Nat) → List Token → List Char → Except Diagnostic (List Token)
  | _, pos, line, done, [] => .ok ((Token.eof ⟨pos, pos, line⟩ :: done).reverse)
  | 0, _, _, done, _ :: _ => .ok done.reverse
  | bound + 1, pos, line, done, c :: cs =>
    match scanItem c cs with
    | .error fault => .error (.lexical (fault.span pos line (cs.length + 1)) fault)
    | .ok item =>
      let text := c :: cs.take item.extra
      let next := pos + text.length
      let done := match Item.token? item.shape text ⟨pos, next, line⟩ with
        | some token => token :: done
        | none => done
      scanWithin bound next (line + lineBreaks text) done (cs.drop item.extra)

/-- A bound of one item for each character is enough. -/
theorem scanFrom_eq_scanWithin (bound : Nat) (pos line : Nat) (done : List Token) (rest : List Char)
    (h : rest.length ≤ bound) : scanFrom pos line done rest = scanWithin bound pos line done rest := by
  induction bound generalizing pos line done rest with
  | zero =>
    rw [List.length_eq_zero_iff.1 (Nat.le_zero.1 h), scanFrom, scanWithin]
  | succ bound ih =>
    cases rest with
    | nil => rw [scanFrom, scanWithin]
    | cons c cs =>
      rw [scanFrom, scanWithin]
      cases scanItem c cs with
      | error fault => rfl
      | ok item =>
        refine ih _ _ _ _ ?_
        simp only [List.length_drop, List.length_cons] at h ⊢
        omega

theorem scan_eq_scanWithin (source : String) :
    scan source = scanWithin source.toList.length 0 1 [] source.toList :=
  scanFrom_eq_scanWithin _ 0 1 [] source.toList (Nat.le_refl _)

end StepScript

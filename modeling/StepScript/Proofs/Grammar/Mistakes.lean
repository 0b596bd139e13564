import StepScript.Proofs.Grammar.Soundness

/-!
# Mistakes in a text

A text that does not compile has a lexical fault or a fault of grammar: a mistake in a text is never taken for
something that happened to a run.
-/

namespace StepScript

theorem scanFrom_error {d : Diagnostic} (pos line : Nat) (done : List Token) (rest : List Char)
    (h : scanFrom pos line done rest = .error d) : ∃ f, d.fault = .lexical f := by
  fun_induction scanFrom pos line done rest with
  | case1 => cases h
  | case2 _ _ _ _ _ fault _ => cases h; exact ⟨fault, rfl⟩
  | case3 _ _ _ _ _ _ _ _ _ _ ih => exact ih h

namespace Grammar

theorem nextDeclaration_error {n : Nat} {c c' : Cursor} {d : Diagnostic} (h : nextDeclaration n c = (.error d, c')) :
    ∃ f, d.fault = .grammar f := by
  unfold nextDeclaration at h
  split at h
  · cases h
  · rename_i hr
    cases h
    exact (((statements_sound n).declaration c.ahead).failed rfl hr).1
  · cases h
    exact ⟨_, diagnose_grammar _ _⟩

theorem declarations_error {n : Nat} {d : Diagnostic} : ∀ {turns : Nat} {done : List Stmt} {c : Cursor},
    declarations n done turns c = .error d → ∃ f, d.fault = .grammar f
  | 0, _, _, h => by cases h
  | turns + 1, done, c, h => by
    rw [declarations] at h
    split at h
    · cases h
    · split at h
      · exact declarations_error h
      · rename_i hn
        cases h
        exact nextDeclaration_error hn

end Grammar

/-- A text that does not compile has a lexical fault or a fault of grammar. -/
theorem compile_error {source : String} {d : Diagnostic} (h : compile source = .error d) :
    (∃ f, d.fault = .lexical f) ∨ ∃ f, d.fault = .grammar f := by
  unfold compile at h
  cases hs : scan source with
  | error d' =>
    rw [hs] at h
    cases h
    exact Or.inl (scanFrom_error _ _ _ _ hs)
  | ok tokens =>
    rw [hs] at h
    exact Or.inr (Grammar.declarations_error h)

end StepScript

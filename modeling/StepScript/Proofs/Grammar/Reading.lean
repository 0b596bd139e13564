import StepScript.Grammar.Cursor

/-!
# What a reading step does

`Reads ts r G` says what the reader `r` does on the tokens `ts`: what it comes back with fits `G`, a relation between
the tokens taken, the thing read and the tokens left; taken and left together are `ts`. If it fails, then with a fault
of grammar, somewhere further on in `ts`. Nothing is said of a bound that was too small.

There is one rule for each of the small readers and one for each way to put readers together, so that what a reader
does can be read off its text.
-/

namespace StepScript

/-- What a reader does on a list of tokens. -/
structure Reads {α : Type} (ts : List Token) (r : Reader α) (G : List Token → α → List Token → Prop) : Prop where
  done : ∀ {c c' : Cursor} {a : α}, c.ahead = ts → r c = .done a c' → ∃ used, ts = used ++ c'.ahead ∧ G used a c'.ahead
  failed : ∀ {c c' : Cursor} {d : Diagnostic}, c.ahead = ts → r c = .failed d c' →
    (∃ f, d.fault = .grammar f) ∧ ∃ used, ts = used ++ c'.ahead

/-- What becomes of the next token if only a certain kind is taken. -/
inductive Taken {α : Type} (classify : TokenKind → Option α) : List Token → Option (α × Token) → List Token → Prop
  | none {rest : List Token} : (∀ t ∈ rest.head?, classify t.kind = none) → Taken classify [] none rest
  | some {a : α} {t : Token} {rest : List Token} : classify t.kind = some a → Taken classify [t] (some (a, t)) rest

/-- What becomes of the next token if only one of the given kind is taken. -/
inductive TakenKind (kind : TokenKind) : List Token → Option Token → List Token → Prop
  | none {rest : List Token} : (∀ t ∈ rest.head?, t.kind ≠ kind) → TakenKind kind [] none rest
  | some {t : Token} {rest : List Token} : t.kind = kind → TakenKind kind [t] (some t) rest

theorem diagnose_grammar (c : Cursor) (f : GrammarFault) : (c.diagnose f).fault = .grammar f := by
  unfold Cursor.diagnose
  split
  · rfl
  · split <;> rfl

namespace Reads

section Rules

variable {α β : Type} {ts : List Token}

/-- A reader that does more does less. -/
theorem mono {r : Reader α} {G H : List Token → α → List Token → Prop} (h : Reads ts r G)
    (hg : ∀ used a rest, ts = used ++ rest → G used a rest → H used a rest) : Reads ts r H where
  done hc hr := by
    obtain ⟨used, hu, ha⟩ := h.done hc hr
    exact ⟨used, hu, hg used _ _ hu ha⟩
  failed := h.failed

theorem pure {a : α} {G : List Token → α → List Token → Prop} (h : G [] a ts) :
    Reads ts (Pure.pure a : Reader α) G where
  done hc hr := by
    cases hr
    exact ⟨[], hc.symm, hc ▸ h⟩
  failed _ hr := by cases hr

/-- One reader after the other. -/
theorem bind {r : Reader α} {f : α → Reader β} {G : List Token → α → List Token → Prop}
    {H : List Token → β → List Token → Prop} (hr : Reads ts r G)
    (hf : ∀ used a rest, ts = used ++ rest → G used a rest →
      Reads rest (f a) fun more b rest' => H (used ++ more) b rest') : Reads ts (r >>= f) H where
  done {c c' b} hc hb := by
    change Reader.bind r f c = _ at hb
    unfold Reader.bind at hb
    split at hb
    · rename_i a c₁ ha
      obtain ⟨used, hu, hg⟩ := hr.done hc ha
      obtain ⟨more, hm, hh⟩ := (hf used a c₁.ahead hu hg).done rfl hb
      exact ⟨used ++ more, by rw [hu, hm, List.append_assoc], hh⟩
    · cases hb
    · cases hb
  failed {c c' d} hc hb := by
    change Reader.bind r f c = _ at hb
    unfold Reader.bind at hb
    split at hb
    · rename_i a c₁ ha
      obtain ⟨used, hu, hg⟩ := hr.done hc ha
      obtain ⟨hd, more, hm⟩ := (hf used a c₁.ahead hu hg).failed rfl hb
      exact ⟨hd, used ++ more, by rw [hu, hm, List.append_assoc]⟩
    · rename_i ha
      cases hb
      exact hr.failed hc ha
    · cases hb

theorem map {r : Reader α} {f : α → β} {G : List Token → β → List Token → Prop}
    (hr : Reads ts r fun used a rest => G used (f a) rest) : Reads ts (f <$> r) G :=
  bind (f := fun a => Pure.pure (f a)) hr fun used _ _ _ hg => pure (by rwa [List.append_nil])

theorem exhausted {G : List Token → α → List Token → Prop} : Reads ts (Reader.exhausted : Reader α) G where
  done _ hr := by cases hr
  failed _ hr := by cases hr

theorem fault {f : GrammarFault} {G : List Token → α → List Token → Prop} :
    Reads ts (Reader.fault f : Reader α) G where
  done _ hr := by cases hr
  failed hc hr := by
    cases hr
    exact ⟨⟨f, diagnose_grammar _ f⟩, [], hc.symm⟩

theorem faultAt {t : Token} {f : GrammarFault} {G : List Token → α → List Token → Prop} :
    Reads ts (Reader.faultAt t f : Reader α) G where
  done _ hr := by cases hr
  failed hc hr := by
    cases hr
    exact ⟨⟨f, rfl⟩, [], hc.symm⟩

theorem sees (kind : TokenKind) :
    Reads ts (Reader.sees kind) fun used b rest => used = [] ∧ (b = true ↔ ∃ t ∈ rest.head?, t.kind = kind) where
  done {c c' b} hc hr := by
    cases hr
    refine ⟨[], hc.symm, rfl, ?_⟩
    unfold Cursor.sees
    cases c.ahead <;> simp
  failed _ hr := by cases hr

theorem atEnd : Reads ts Reader.atEnd fun used _ _ => used = [] where
  done hc hr := by
    cases hr
    exact ⟨[], hc.symm, rfl⟩
  failed _ hr := by cases hr

theorem acceptAs (classify : TokenKind → Option α) : Reads ts (Reader.acceptAs classify) (Taken classify) where
  done {c c' o} hc hr := by
    unfold Reader.acceptAs at hr
    split at hr
    · rename_i t us ha
      split at hr
      · rename_i a hk
        cases hr
        exact ⟨[t], hc ▸ ha, .some hk⟩
      · rename_i hk
        cases hr
        refine ⟨[], hc.symm, .none ?_⟩
        rw [ha]
        simpa using hk
    · rename_i ha
      cases hr
      refine ⟨[], hc.symm, .none ?_⟩
      rw [ha]
      simp
  failed {c c' d} _ hr := by
    unfold Reader.acceptAs at hr
    split at hr
    · split at hr <;> cases hr
    · cases hr

theorem accept (kind : TokenKind) : Reads ts (Reader.accept kind) (TakenKind kind) where
  done {c c' o} hc hr := by
    unfold Reader.accept at hr
    split at hr
    · rename_i t us ha
      split at hr
      · rename_i hk
        cases hr
        exact ⟨[t], hc ▸ ha, .some hk⟩
      · rename_i hk
        cases hr
        refine ⟨[], hc.symm, .none ?_⟩
        rw [ha]
        simpa using hk
    · rename_i ha
      cases hr
      refine ⟨[], hc.symm, .none ?_⟩
      rw [ha]
      simp
  failed {c c' d} _ hr := by
    unfold Reader.accept at hr
    split at hr
    · split at hr <;> cases hr
    · cases hr

theorem expect (kind : TokenKind) (f : GrammarFault) :
    Reads ts (Reader.expect kind f) fun used t _ => used = [t] ∧ t.kind = kind where
  done {c c' t} hc hr := by
    unfold Reader.expect at hr
    split at hr
    · rename_i ha
      split at hr
      · rename_i hk
        cases hr
        exact ⟨[t], hc ▸ ha, rfl, hk⟩
      · cases hr
    · cases hr
  failed {c c' d} hc hr := by
    have hd : d = c.diagnose f ∧ c' = c := by
      unfold Reader.expect at hr
      split at hr
      · split at hr
        · cases hr
        · cases hr; exact ⟨rfl, rfl⟩
      · cases hr; exact ⟨rfl, rfl⟩
    obtain ⟨rfl, rfl⟩ := hd
    exact ⟨⟨f, diagnose_grammar _ f⟩, [], hc.symm⟩

end Rules

/-! ## One token, then the rest -/

section Then

variable {α β : Type} {ts : List Token} {H : List Token → β → List Token → Prop}

theorem expect_bind {kind : TokenKind} {f : GrammarFault} {k : Token → Reader β}
    (h : ∀ t rest, ts = t :: rest → t.kind = kind → Reads rest (k t) fun more b rest' => H (t :: more) b rest') :
    Reads ts (Reader.expect kind f >>= k) H := by
  refine bind (expect kind f) fun used t rest hu hg => ?_
  obtain ⟨rfl, hk⟩ := hg
  exact h t rest hu hk

theorem accept_bind {kind : TokenKind} {k : Option Token → Reader β}
    (hn : (∀ t ∈ ts.head?, t.kind ≠ kind) → Reads ts (k none) H)
    (hs : ∀ t rest, ts = t :: rest → t.kind = kind → Reads rest (k (some t)) fun more b rest' => H (t :: more) b rest') :
    Reads ts (Reader.accept kind >>= k) H := by
  refine bind (accept kind) fun used o rest hu hg => ?_
  cases hg with
  | none hk => cases hu; exact hn hk
  | some hk => exact hs _ rest hu hk

theorem acceptAs_bind {classify : TokenKind → Option α} {k : Option (α × Token) → Reader β}
    (hn : (∀ t ∈ ts.head?, classify t.kind = none) → Reads ts (k none) H)
    (hs : ∀ a t rest, ts = t :: rest → classify t.kind = some a →
      Reads rest (k (some (a, t))) fun more b rest' => H (t :: more) b rest') :
    Reads ts (Reader.acceptAs classify >>= k) H := by
  refine bind (acceptAs classify) fun used o rest hu hg => ?_
  cases hg with
  | none hk => cases hu; exact hn hk
  | some hk => exact hs _ _ rest hu hk

theorem sees_bind {kind : TokenKind} {k : Bool → Reader β}
    (h : ∀ b, (b = true ↔ ∃ t ∈ ts.head?, t.kind = kind) → Reads ts (k b) H) :
    Reads ts (Reader.sees kind >>= k) H := by
  refine bind (sees kind) fun used b rest hu hg => ?_
  obtain ⟨rfl, hb⟩ := hg
  cases hu
  exact h b hb

end Then

end Reads

end StepScript

import StepScript.Proofs.Grammar.Passing
import StepScript.Proofs.Grammar.Soundness

/-!
# Readers and the tokens behind

What a reader does is decided by the tokens that it takes and the one behind them. So it does the same when more tokens
are put at the end, as long as it has not come to the end before, or the next token is one that it leaves alone; and it
does the same wherever in a text it starts, and with a larger bound.

`Extends p K r r'` says this of two readers, the second with more tokens behind: where `r` is done or fails before the
end, `r'` is done with the same tree or fails with the same fault, at the same token; where `r` is done at the end, so
is `r'` if the next token is of a kind in `K`. All tokens taken are of kinds in `p`.

Expressions go on with whatever fits, so nothing can be said about their end (`expressions_extend`), but a statement
ends with its own last token: the one thing that it goes on with is `else` (`statements_extend`).
-/

namespace StepScript

/-- Nothing stands behind, or a token of a kind in `K`. -/
def Before (K : TokenKind → Prop) (rest : List Token) : Prop := ∀ t ∈ rest.head?, K t.kind

/-- A reader that is not done where no token is left. -/
def Needs {α : Type} (r : Reader α) : Prop := ∀ latest a c, r ⟨latest, []⟩ ≠ .done a c

/-- The second reader does with more tokens behind what the first one does. -/
structure Extends {α : Type} (p K : TokenKind → Prop) (r r' : Reader α) : Prop where
  done : ∀ {c c' : Cursor} {a : α}, r c = .done a c' →
    ∃ used, c.ahead = used ++ c'.ahead ∧ (∀ t ∈ used, p t.kind) ∧ ∀ latest rest, (c'.ahead = [] → Before K rest) →
      ∃ latest', r' ⟨latest, c.ahead ++ rest⟩ = .done a ⟨latest', c'.ahead ++ rest⟩
  failed : ∀ {c c' : Cursor} {d : Diagnostic}, r c = .failed d c' →
    ∃ used, c.ahead = used ++ c'.ahead ∧ (∀ t ∈ used, p t.kind) ∧ (c'.ahead ≠ [] → ∀ latest rest,
      ∃ latest', r' ⟨latest, c.ahead ++ rest⟩ = .failed d ⟨latest', c'.ahead ++ rest⟩)

/-- A reader in sequence fails in its first part or in its second. -/
theorem Reader.bind_failed {α β : Type} {r : Reader α} {f : α → Reader β} {c c' : Cursor} {d : Diagnostic}
    (h : (r >>= f) c = .failed d c') : r c = .failed d c' ∨ ∃ a c₁, r c = .done a c₁ ∧ f a c₁ = .failed d c' := by
  change Reader.bind r f c = _ at h
  unfold Reader.bind at h
  split at h
  · rename_i a c₁ ha
    exact Or.inr ⟨a, c₁, ha, h⟩
  · rename_i ha
    cases h
    exact Or.inl ha
  · cases h

/-- A reader in sequence is done with its second part. -/
theorem Reader.bind_done {α β : Type} {r : Reader α} {f : α → Reader β} {c c' : Cursor} {b : β}
    (h : (r >>= f) c = .done b c') : ∃ a c₁, r c = .done a c₁ ∧ f a c₁ = .done b c' := by
  change Reader.bind r f c = _ at h
  unfold Reader.bind at h
  split at h
  · rename_i a c₁ ha
    exact ⟨a, c₁, ha, h⟩
  · cases h
  · cases h

theorem Reader.bind_of_failed {α β : Type} {r : Reader α} {f : α → Reader β} {c c' : Cursor} {d : Diagnostic}
    (h : r c = .failed d c') : (r >>= f) c = .failed d c' := by
  show Reader.bind r f c = _
  unfold Reader.bind
  rw [h]

theorem needs_expect {β : Type} {kind : TokenKind} {f : GrammarFault} {k : Token → Reader β} :
    Needs (Reader.expect kind f >>= k) := fun _ _ _ h => by cases h

theorem needs_bind {α β : Type} {r : Reader α} {f : α → Reader β} (h : Needs r) : Needs (r >>= f) := by
  intro latest b c hb
  obtain ⟨a, c₁, ha, -⟩ := Reader.bind_done hb
  exact h latest a c₁ ha

theorem needs_inside {α : Type} {f : GrammarFault} {r : Reader α} :
    Needs (Reader.atEnd >>= fun b => if b = true then Reader.fault f else r) := fun _ _ _ h => by cases h

/-- A reader that takes a token whenever it is done needs one. -/
theorem Reads.needs {α : Type} {r : Reader α} {G : List Token → α → List Token → Prop} (h : Reads [] r G)
    (hG : ∀ a, ¬G [] a []) : Needs r := by
  intro latest a c hr
  obtain ⟨used, hu, hg⟩ := h.done rfl hr
  obtain ⟨rfl, hc⟩ := List.append_eq_nil_iff.1 hu.symm
  rw [hc] at hg
  exact hG a hg

namespace Extends

section Rules

variable {α β : Type} {p q K L : TokenKind → Prop}

theorem weaken {r r' : Reader α} (h : Extends p K r r') (hp : ∀ k, p k → q k) (hK : ∀ k, L k → K k) :
    Extends q L r r' where
  done hr := by
    obtain ⟨used, hu, ht, hx⟩ := h.done hr
    exact ⟨used, hu, fun t hm => hp _ (ht t hm), fun latest rest hrest =>
      hx latest rest fun he t hm => hK _ (hrest he t hm)⟩
  failed hr := by
    obtain ⟨used, hu, ht, hx⟩ := h.failed hr
    exact ⟨used, hu, fun t hm => hp _ (ht t hm), hx⟩

theorem exhausted {r' : Reader α} : Extends p K Reader.exhausted r' where
  done hr := by cases hr
  failed hr := by cases hr

theorem pure {a : α} : Extends p K (Pure.pure a : Reader α) (Pure.pure a) where
  done {c c' b} hr := by
    cases hr
    exact ⟨[], rfl, List.forall_mem_nil _, fun latest rest _ => ⟨latest, rfl⟩⟩
  failed hr := by cases hr

theorem fault {f : GrammarFault} : Extends p K (Reader.fault f : Reader α) (Reader.fault f) where
  done hr := by cases hr
  failed {c c' d} hr := by
    cases hr
    refine ⟨[], rfl, List.forall_mem_nil _, fun hc latest rest => ⟨latest, ?_⟩⟩
    obtain ⟨t, ts, ha⟩ := List.exists_cons_of_ne_nil hc
    simp only [Reader.fault, Cursor.diagnose, ha, List.cons_append]

theorem faultAt {t : Token} {f : GrammarFault} : Extends p K (Reader.faultAt t f : Reader α) (Reader.faultAt t f) where
  done hr := by cases hr
  failed {c c' d} hr := by
    cases hr
    exact ⟨[], rfl, List.forall_mem_nil _, fun _ latest rest => ⟨latest, rfl⟩⟩

/-- One reader after the other. The end of the first one matters only if the second one can be done there. -/
theorem seq {r r' : Reader α} {f f' : α → Reader β} (hr : Extends p L r r') (hf : ∀ a, Extends p K (f a) (f' a))
    (hend : (∀ a, Needs (f a)) ∨ ∀ k, K k → L k) : Extends p K (r >>= f) (r' >>= f') where
  done {c c' b} h := by
    obtain ⟨a, c₁, ha, hb⟩ := Reader.bind_done h
    obtain ⟨used, hu, ht, hx⟩ := hr.done ha
    obtain ⟨more, hm, ht', hx'⟩ := (hf a).done hb
    refine ⟨used ++ more, by rw [hu, hm, List.append_assoc], List.forall_mem_append.2 ⟨ht, ht'⟩, ?_⟩
    intro latest rest hrest
    -- If the first reader came to the end, so did the second, which has to be able to be done there.
    have hfirst : c₁.ahead = [] → Before L rest := by
      intro hc
      rcases hend with hn | hK
      · obtain ⟨l, ts⟩ := c₁
        cases hc
        exact absurd hb (hn a l b c')
      · rw [hc] at hm
        have hc' := (List.append_eq_nil_iff.1 hm.symm).2
        exact fun t hmem => hK _ (hrest hc' t hmem)
    obtain ⟨l₁, h₁⟩ := hx latest rest hfirst
    obtain ⟨l₂, h₂⟩ := hx' l₁ rest hrest
    exact ⟨l₂, by rw [Reader.bind_of_done h₁, h₂]⟩
  failed {c c' d} h := by
    rcases Reader.bind_failed h with ha | ⟨a, c₁, ha, hb⟩
    · obtain ⟨used, hu, ht, hx⟩ := hr.failed ha
      refine ⟨used, hu, ht, fun hc latest rest => ?_⟩
      obtain ⟨l₁, h₁⟩ := hx hc latest rest
      exact ⟨l₁, Reader.bind_of_failed h₁⟩
    · obtain ⟨used, hu, ht, hx⟩ := hr.done ha
      obtain ⟨more, hm, ht', hx'⟩ := (hf a).failed hb
      refine ⟨used ++ more, by rw [hu, hm, List.append_assoc], List.forall_mem_append.2 ⟨ht, ht'⟩, ?_⟩
      intro hc latest rest
      -- The second reader failed before the end, so the first one was done before it.
      have hfirst : c₁.ahead ≠ [] := by
        intro hc₁
        rw [hc₁] at hm
        exact hc (List.append_eq_nil_iff.1 hm.symm).2
      obtain ⟨l₁, h₁⟩ := hx latest rest fun h₀ => absurd h₀ hfirst
      obtain ⟨l₂, h₂⟩ := hx' hc l₁ rest
      exact ⟨l₂, by rw [Reader.bind_of_done h₁, h₂]⟩

/-- One reader after the other, with the same tokens left alone. -/
theorem bind {r r' : Reader α} {f f' : α → Reader β} (hr : Extends p K r r') (hf : ∀ a, Extends p K (f a) (f' a)) :
    Extends p K (r >>= f) (r' >>= f') := seq hr hf (Or.inr fun _ hk => hk)

/-- A reader that something has to stand behind. -/
theorem before {r r' : Reader α} {f f' : α → Reader β} (hr : Extends q L r r')
    (hf : ∀ a, Extends (fun _ => True) K (f a) (f' a)) (hn : ∀ a, Needs (f a)) :
    Extends (fun _ => True) K (r >>= f) (r' >>= f') :=
  seq (hr.weaken (fun _ _ => trivial) fun _ hk => hk) hf (Or.inl hn)

theorem map {r r' : Reader α} {f : α → β} (h : Extends p K r r') : Extends p K (f <$> r) (f <$> r') := by
  show Extends p K (r >>= fun a => Pure.pure (f a)) (r' >>= fun a => Pure.pure (f a))
  exact bind h fun _ => pure

theorem sees (kind : TokenKind) : Extends p (· ≠ kind) (Reader.sees kind) (Reader.sees kind) where
  done {c c' b} hr := by
    cases hr
    refine ⟨[], rfl, List.forall_mem_nil _, fun latest rest hrest => ⟨latest, ?_⟩⟩
    unfold Reader.sees Cursor.sees
    cases hc : c.ahead with
    | nil =>
      cases rest with
      | nil => rfl
      | cons t rest =>
        have hk := hrest hc t rfl
        simpa using hk
    | cons t ts => rfl
  failed hr := by cases hr

/-- Inside a list of tokens the end is not seen. -/
theorem inside_bind {r r' : Reader α} {f : GrammarFault} (h : Extends p K r r') :
    Extends p K (Reader.atEnd >>= fun b => if b = true then Reader.fault f else r)
      (Reader.atEnd >>= fun b => if b = true then Reader.fault f else r') := by
  have hin : ∀ (s : Reader α) (c : Cursor), c.ahead ≠ [] →
      (Reader.atEnd >>= fun b => if b = true then Reader.fault f else s) c = s c := by
    intro s c hc
    have he : c.atEnd = false := by simpa [Cursor.atEnd] using hc
    rw [Reader.bind_of_done (show Reader.atEnd c = .done false c by rw [Reader.atEnd, he])]
    rfl
  have hat : ∀ (s : Reader α) (c : Cursor), c.ahead = [] →
      (Reader.atEnd >>= fun b => if b = true then Reader.fault f else s) c = .failed (c.diagnose f) c := by
    intro s c hc
    have he : c.atEnd = true := by simpa [Cursor.atEnd] using hc
    rw [Reader.bind_of_done (show Reader.atEnd c = .done true c by rw [Reader.atEnd, he])]
    rfl
  constructor
  · intro c c' a hr
    by_cases hc : c.ahead = []
    · rw [hat r c hc] at hr
      cases hr
    · rw [hin r c hc] at hr
      obtain ⟨used, hu, ht, hx⟩ := h.done hr
      refine ⟨used, hu, ht, fun latest rest hrest => ?_⟩
      rw [hin r' ⟨latest, c.ahead ++ rest⟩ (by simp [hc])]
      exact hx latest rest hrest
  · intro c c' d hr
    by_cases hc : c.ahead = []
    · rw [hat r c hc] at hr
      cases hr
      exact ⟨[], rfl, List.forall_mem_nil _, fun hn => absurd hc hn⟩
    · rw [hin r c hc] at hr
      obtain ⟨used, hu, ht, hx⟩ := h.failed hr
      refine ⟨used, hu, ht, fun hn latest rest => ?_⟩
      rw [hin r' ⟨latest, c.ahead ++ rest⟩ (by simp [hc])]
      exact hx hn latest rest

theorem expect {kind : TokenKind} {f : GrammarFault} (hp : p kind) :
    Extends p K (Reader.expect kind f) (Reader.expect kind f) where
  done {c c' t} hr := by
    unfold Reader.expect at hr
    split at hr
    · rename_i u us ha
      split at hr
      · rename_i hk
        cases hr
        refine ⟨[t], ha, by simpa [hk] using hp, fun latest rest _ => ⟨some t, ?_⟩⟩
        simp only [Reader.expect, ha, List.cons_append, if_pos hk]
      · cases hr
    · cases hr
  failed {c c' d} hr := by
    unfold Reader.expect at hr
    split at hr
    · rename_i u us ha
      split at hr
      · cases hr
      · rename_i hk
        cases hr
        refine ⟨[], rfl, List.forall_mem_nil _, fun _ latest rest => ⟨latest, ?_⟩⟩
        simp only [Reader.expect, Cursor.diagnose, ha, List.cons_append, if_neg hk]
    · rename_i ha
      cases hr
      exact ⟨[], rfl, List.forall_mem_nil _, fun hc => absurd ha hc⟩

/-- A reader that takes a token or only looks, and what comes after it. If it sees the end, what comes after needs a
token, or the next token is not taken. -/
theorem optional_bind {r : Reader (Option α)} {k k' : Option α → Reader β}
    (takes : Token → Option α) (hr : ∀ latest ts, r ⟨latest, ts⟩ = match ts with
      | t :: us => (match takes t with
        | some a => .done (some a) ⟨some t, us⟩
        | none => .done none ⟨latest, ts⟩)
      | [] => .done none ⟨latest, ts⟩)
    (hp : ∀ t a, takes t = some a → p t.kind) (hn : Extends p K (k none) (k' none))
    (hs : ∀ a, Extends p K (k (some a)) (k' (some a)))
    (hend : Needs (k none) ∨ ∀ t : Token, K t.kind → takes t = none) : Extends p K (r >>= k) (r >>= k') := by
  have hskip : ∀ (s : Option α → Reader β) (latest : Option Token) (ts : List Token),
      (∀ t ∈ ts.head?, takes t = none) → (r >>= s) ⟨latest, ts⟩ = s none ⟨latest, ts⟩ := by
    intro s latest ts hts
    refine Reader.bind_of_done ?_
    rw [hr]
    cases ts with
    | nil => rfl
    | cons t us =>
      dsimp only
      rw [hts t rfl]
  have htake : ∀ (s : Option α → Reader β) (latest : Option Token) (t : Token) (us : List Token) (a : α),
      takes t = some a → (r >>= s) ⟨latest, t :: us⟩ = s (some a) ⟨some t, us⟩ := by
    intro s latest t us a ha
    refine Reader.bind_of_done ?_
    rw [hr]
    dsimp only
    rw [ha]
  constructor
  · intro c c' b h
    obtain ⟨l, ts⟩ := c
    cases ts with
    | nil =>
      rw [hskip k l [] (fun _ ht => by cases ht)] at h
      obtain ⟨used, hu, ht, hx⟩ := hn.done h
      have hc' : c'.ahead = [] := (List.append_eq_nil_iff.1 hu.symm).2
      refine ⟨used, hu, ht, fun latest rest hrest => ?_⟩
      rw [List.nil_append, hskip k' latest rest]
      · exact hx latest rest hrest
      · rcases hend with hneeds | hK
        · exact absurd h (hneeds l b c')
        · exact fun t hm => hK t (hrest hc' t hm)
    | cons t us =>
      cases ha : takes t with
      | none =>
        rw [hskip k l (t :: us) (by simpa using ha)] at h
        obtain ⟨used, hu, ht, hx⟩ := hn.done h
        refine ⟨used, hu, ht, fun latest rest hrest => ?_⟩
        rw [hskip k' latest (t :: us ++ rest) (by simpa using ha)]
        exact hx latest rest hrest
      | some a =>
        rw [htake k l t us a ha] at h
        obtain ⟨used, hu, ht, hx⟩ := (hs a).done h
        refine ⟨t :: used, by simpa using hu, List.forall_mem_cons.2 ⟨hp t a ha, ht⟩, fun latest rest hrest => ?_⟩
        show ∃ latest', (r >>= k') ⟨latest, t :: (us ++ rest)⟩ = _
        rw [htake k' latest t (us ++ rest) a ha]
        exact hx (some t) rest hrest
  · intro c c' d h
    obtain ⟨l, ts⟩ := c
    cases ts with
    | nil =>
      rw [hskip k l [] (fun _ ht => by cases ht)] at h
      obtain ⟨used, hu, ht, -⟩ := hn.failed h
      exact ⟨used, hu, ht, fun hc => absurd (List.append_eq_nil_iff.1 hu.symm).2 hc⟩
    | cons t us =>
      cases ha : takes t with
      | none =>
        rw [hskip k l (t :: us) (by simpa using ha)] at h
        obtain ⟨used, hu, ht, hx⟩ := hn.failed h
        refine ⟨used, hu, ht, fun hc latest rest => ?_⟩
        rw [hskip k' latest (t :: us ++ rest) (by simpa using ha)]
        exact hx hc latest rest
      | some a =>
        rw [htake k l t us a ha] at h
        obtain ⟨used, hu, ht, hx⟩ := (hs a).failed h
        refine ⟨t :: used, by simpa using hu, List.forall_mem_cons.2 ⟨hp t a ha, ht⟩, fun hc latest rest => ?_⟩
        show ∃ latest', (r >>= k') ⟨latest, t :: (us ++ rest)⟩ = _
        rw [htake k' latest t (us ++ rest) a ha]
        exact hx hc (some t) rest

theorem accept_bind {kind : TokenKind} {k k' : Option Token → Reader β} (hp : p kind)
    (hn : Extends p K (k none) (k' none)) (hs : ∀ t, Extends p K (k (some t)) (k' (some t)))
    (hend : Needs (k none) ∨ ∀ k, K k → k ≠ kind) :
    Extends p K (Reader.accept kind >>= k) (Reader.accept kind >>= k') := by
  refine optional_bind (fun t => if t.kind = kind then some t else none) (fun latest ts => ?_) (fun t a ha => ?_) hn hs
    (hend.imp_right fun hK t ht => if_neg (hK _ ht))
  · cases ts with
    | nil => rfl
    | cons t us =>
      simp only [Reader.accept]
      split <;> rfl
  · split at ha
    · rename_i hk
      rwa [hk]
    · cases ha

theorem acceptAs_bind {classify : TokenKind → Option α} {k k' : Option (α × Token) → Reader β}
    (hp : ∀ kind a, classify kind = some a → p kind) (hn : Extends p K (k none) (k' none))
    (hs : ∀ a, Extends p K (k (some a)) (k' (some a)))
    (hend : Needs (k none) ∨ ∀ kind, K kind → classify kind = none) :
    Extends p K (Reader.acceptAs classify >>= k) (Reader.acceptAs classify >>= k') := by
  refine optional_bind (fun t => (classify t.kind).map (·, t)) (fun latest ts => ?_) (fun t a ha => ?_) hn hs
    (hend.imp_right fun hK t ht => by rw [hK _ ht]; rfl)
  · cases ts with
    | nil => rfl
    | cons t us =>
      simp only [Reader.acceptAs]
      cases classify t.kind <;> rfl
  · obtain ⟨b, hb, -⟩ := Option.map_eq_some_iff.1 ha
    exact hp _ b hb

/-- A token that may be taken, where the end is left open. -/
theorem accept_open {kind : TokenKind} {k k' : Option Token → Reader β} (hp : p kind)
    (hn : Extends p (fun _ => False) (k none) (k' none))
    (hs : ∀ t, Extends p (fun _ => False) (k (some t)) (k' (some t))) :
    Extends p (fun _ => False) (Reader.accept kind >>= k) (Reader.accept kind >>= k') :=
  accept_bind hp hn hs (Or.inr fun _ hk => hk.elim)

theorem acceptAs_open {classify : TokenKind → Option α} {k k' : Option (α × Token) → Reader β}
    (hp : ∀ kind a, classify kind = some a → p kind) (hn : Extends p (fun _ => False) (k none) (k' none))
    (hs : ∀ a, Extends p (fun _ => False) (k (some a)) (k' (some a))) :
    Extends p (fun _ => False) (Reader.acceptAs classify >>= k) (Reader.acceptAs classify >>= k') :=
  acceptAs_bind hp hn hs (Or.inr fun _ hk => hk.elim)

/-- An expected token and what comes after it. -/
theorem expect_bind {kind : TokenKind} {f : GrammarFault} {k k' : Token → Reader β} (hp : p kind)
    (h : ∀ t, Extends p K (k t) (k' t)) : Extends p K (Reader.expect kind f >>= k) (Reader.expect kind f >>= k') :=
  bind (expect hp) h

end Rules

end Extends

namespace Grammar

open Reader

/-! ## Expressions -/

/-- What stands behind an expression matters to it, and it takes no semicolon. -/
abbrev ExtendsWithin {α : Type} (r r' : Reader α) : Prop := Extends (· ≠ .semicolon) (fun _ => False) r r'

theorem ne_of_classify {α : Type} {classify : TokenKind → Option α} {k : TokenKind} (h : classify k = none)
    (kind : TokenKind) (a : α) (ha : classify kind = some a) : kind ≠ k := by
  rintro rfl
  rw [h] at ha
  cases ha

theorem extends_assignTo (target : Expr) (equals : Token) (value : Expr) :
    ExtendsWithin (assignTo target equals value) (assignTo target equals value) := by
  unfold assignTo
  split
  · exact .pure
  · exact .pure
  · exact .pure
  · exact .faultAt

theorem extends_takeOpening : ExtendsWithin takeOpening takeOpening where
  done {c c' o} hr := by
    unfold takeOpening at hr
    split at hr
    · cases hr
    · rename_i t ts ha
      split at hr
      · cases hr
      · rename_i hn
        cases hr
        refine ⟨[t], ha, ?_, fun latest rest _ => ⟨some t, ?_⟩⟩
        · rintro u hu hk
          obtain rfl : u = t := by simpa using hu
          exact hn (by unfold opening; rw [hk])
        · simp only [takeOpening, ha, List.cons_append]
  failed {c c' d} hr := by
    unfold takeOpening at hr
    split at hr
    · rename_i ha
      cases hr
      exact ⟨[], rfl, List.forall_mem_nil _, fun hc => absurd ha hc⟩
    · rename_i t ts ha
      split at hr
      · rename_i hn
        cases hr
        refine ⟨[], rfl, List.forall_mem_nil _, fun _ latest rest => ⟨latest, ?_⟩⟩
        simp only [takeOpening, Cursor.diagnose, ha, List.cons_append, hn]
      · cases hr

/-- The readers of expressions with a larger bound do the same with more tokens behind. -/
structure ExpressionsExtend (n m : Nat) : Prop where
  expression : ExtendsWithin (expression n) (expression m)
  tier : ∀ t, ExtendsWithin (tier n t) (tier m t)
  operand : ∀ t, ExtendsWithin (operand n t) (operand m t)
  tierRest : ∀ t left, ExtendsWithin (tierRest n t left) (tierRest m t left)
  signed : ExtendsWithin (signed n) (signed m)
  suffixes : ∀ e, ExtendsWithin (suffixes n e) (suffixes m e)
  listUntil : ∀ close room, ExtendsWithin (listUntil n close room) (listUntil m close room)
  list : ∀ room, ExtendsWithin (list n room) (list m room)
  primary : ExtendsWithin (primary n) (primary m)

section Step

variable {n m : Nat} (ih : ExpressionsExtend n m)
include ih

theorem extends_expression : ExtendsWithin (expression (n + 1)) (expression (m + 1)) := by
  rw [expression, expression]
  refine .bind (ih.tier .or) fun target => .accept_open (by decide) .pure fun equals => ?_
  exact .bind ih.expression fun value => extends_assignTo target equals value

theorem extends_tier (t : Tier) : ExtendsWithin (tier (n + 1) t) (tier (m + 1) t) := by
  rw [tier, tier]
  exact .bind (ih.operand t) fun first => ih.tierRest t first

theorem extends_operand (t : Tier) : ExtendsWithin (operand (n + 1) t) (operand (m + 1) t) := by
  rw [operand, operand]
  split
  · exact ih.tier _
  · exact ih.signed

theorem extends_tierRest (t : Tier) (left : Expr) :
    ExtendsWithin (tierRest (n + 1) t left) (tierRest (m + 1) t left) := by
  rw [tierRest, tierRest]
  refine .acceptAs_open (ne_of_classify (by cases t <;> rfl)) .pure fun joint => ?_
  exact .bind (ih.operand t) fun right => ih.tierRest t _

theorem extends_signed : ExtendsWithin (signed (n + 1)) (signed (m + 1)) := by
  rw [signed, signed]
  refine .acceptAs_open (ne_of_classify rfl) ?_ fun op => ?_
  · exact .bind ih.primary fun first => ih.suffixes first
  · exact .bind ih.signed fun inner => .pure

theorem extends_suffixes (e : Expr) : ExtendsWithin (suffixes (n + 1) e) (suffixes (m + 1) e) := by
  rw [suffixes, suffixes]
  refine .acceptAs_open (ne_of_classify rfl) .pure fun suffix => ?_
  obtain ⟨suffix, opened⟩ := suffix
  cases suffix with
  | arguments => exact .bind (ih.listUntil _ _) fun args => .expect_bind (by decide) fun close => ih.suffixes _
  | index => exact .bind ih.expression fun index => .expect_bind (by decide) fun close => ih.suffixes _
  | property => exact .expect_bind (by decide) fun name => ih.suffixes _

theorem extends_listUntil (close : TokenKind) (room : Option Nat) :
    ExtendsWithin (listUntil (n + 1) close room) (listUntil (m + 1) close room) := by
  rw [listUntil, listUntil]
  refine .bind ((Extends.sees close).weaken (fun _ hk => hk) fun _ hk => hk.elim) fun b => ?_
  cases b with
  | true => exact .pure
  | false => exact ih.list room

theorem extends_list (room : Option Nat) : ExtendsWithin (list (n + 1) room) (list (m + 1) room) := by
  by_cases hz : room = some 0
  · rw [hz, list, list]
    exact .fault
  · rw [list, list]
    · refine .bind ih.expression fun e => .accept_open (by decide) .pure fun comma => ?_
      exact .bind (ih.list _) fun es => .pure
    · exact hz
    · exact hz

theorem extends_primary : ExtendsWithin (primary (n + 1)) (primary (m + 1)) := by
  rw [primary, primary]
  refine .bind extends_takeOpening fun o => ?_
  obtain ⟨o, t⟩ := o
  cases o with
  | whole e => exact .pure
  | group => exact .bind ih.expression fun inner => .expect_bind (by decide) fun close => .pure
  | array => exact .bind (ih.listUntil _ _) fun items => .expect_bind (by decide) fun close => .pure
  | hollow => exact .faultAt
  | none => exact .faultAt

end Step

/-- **Expressions are read alike with more tokens behind**, and no semicolon is taken for one. -/
theorem expressions_extend : ∀ {n m : Nat}, n ≤ m → ExpressionsExtend n m
  | 0, m, _ => by
    constructor <;> intros <;>
      simp only [expression, tier, operand, tierRest, signed, suffixes, listUntil, list, primary] <;> exact .exhausted
  | n + 1, 0, h => absurd h (Nat.not_succ_le_zero n)
  | n + 1, m + 1, h =>
    have ih := expressions_extend (Nat.le_of_succ_le_succ h)
    { expression := extends_expression ih
      tier := extends_tier ih
      operand := extends_operand ih
      tierRest := extends_tierRest ih
      signed := extends_signed ih
      suffixes := extends_suffixes ih
      listUntil := extends_listUntil ih
      list := extends_list ih
      primary := extends_primary ih }

/-! ## Statements -/

/-- Any token may be taken, and one of a kind in `K` may stand behind. -/
abbrev ExtendsUpTo {α : Type} (K : TokenKind → Prop) (r r' : Reader α) : Prop := Extends (fun _ => True) K r r'

theorem needs_expressionStatement (n : Nat) : Needs (expressionStatement n) := by
  refine (reads_expressionStatement n []).needs fun s h => ?_
  obtain ⟨us, close, e, hu, -⟩ := h
  exact absurd hu (by simp)

theorem needs_parameters : ∀ room, Needs (parameters room)
  | 0 => fun _ _ _ h => by cases h
  | _ + 1 => needs_expect

theorem needs_blockRest (n : Nat) : Needs (blockRest n) := by
  refine ((statements_sound n).blockRest []).needs fun b h => ?_
  obtain ⟨us, hu, -⟩ := h
  exact absurd hu (by simp)

theorem needs_statement (n : Nat) : Needs (statement n) := by
  refine ((statements_sound n).statement []).needs fun s h => ?_
  obtain ⟨o, hs, -⟩ := h
  exact hs.ne_nil rfl

section Parts

variable {n m : Nat} (h : n ≤ m)
include h

theorem extends_optionalUntil (close : TokenKind) : ExtendsWithin (optionalUntil n close) (optionalUntil m close) := by
  unfold optionalUntil
  refine .bind ((Extends.sees close).weaken (fun _ hk => hk) fun _ hk => hk.elim) fun b => ?_
  cases b with
  | true => exact .pure
  | false => exact .map (expressions_extend h).expression

theorem extends_expressionStatement :
    ExtendsUpTo (fun _ => True) (expressionStatement n) (expressionStatement m) := by
  unfold expressionStatement
  refine .before (expressions_extend h).expression (fun e => ?_) fun _ => needs_expect
  exact .expect_bind trivial fun close => .pure

theorem extends_forStart : ExtendsUpTo (fun _ => True) (forStart n) (forStart m) := by
  unfold forStart
  refine Extends.accept_bind trivial (.map (extends_expressionStatement h)) (fun _ => .pure) (Or.inl ?_)
  exact needs_bind (needs_expressionStatement n)

theorem extends_returnStatement (keyword : Token) :
    ExtendsUpTo (fun _ => True) (returnStatement n keyword) (returnStatement m keyword) := by
  unfold returnStatement
  exact .before (extends_optionalUntil h _) (fun value => .expect_bind trivial fun close => .pure) fun _ => needs_expect

theorem extends_printStatement (newline : Bool) (keyword : Token) :
    ExtendsUpTo (fun _ => True) (printStatement n newline keyword) (printStatement m newline keyword) := by
  unfold printStatement
  refine .expect_bind trivial fun opened => ?_
  refine .before (expressions_extend h).expression (fun e => ?_) fun _ => needs_expect
  exact .expect_bind trivial fun closed => .expect_bind trivial fun close => .pure

theorem extends_inputStatement (keyword : Token) :
    ExtendsUpTo (fun _ => True) (inputStatement n keyword) (inputStatement m keyword) := by
  unfold inputStatement
  refine .expect_bind trivial fun opened => .before (extends_optionalUntil h _) (fun prompt => ?_) fun _ => needs_expect
  exact .expect_bind trivial fun closed => .expect_bind trivial fun close => .pure

end Parts

theorem extends_parameters : ∀ room, ExtendsWithin (parameters room) (parameters room)
  | 0 => by
    rw [parameters]
    exact .fault
  | room + 1 => by
    rw [parameters]
    refine .expect_bind (by decide) fun name => Extends.accept_open (by decide) .pure fun comma => ?_
    exact .bind (extends_parameters room) fun names => .pure

/-- The readers of statements with a larger bound do the same with more tokens behind, unless `else` is next. -/
structure StatementsExtend (n m : Nat) : Prop where
  declaration : ExtendsUpTo (· ≠ .else) (declaration n) (declaration m)
  functionDeclaration : ∀ keyword,
    ExtendsUpTo (fun _ => True) (functionDeclaration n keyword) (functionDeclaration m keyword)
  blockRest : ExtendsUpTo (fun _ => True) (blockRest n) (blockRest m)
  statement : ExtendsUpTo (· ≠ .else) (statement n) (statement m)

section Step

variable {n m : Nat} (h : n ≤ m) (ih : StatementsExtend n m)
include ih

theorem extends_declaration : ExtendsUpTo (· ≠ .else) (declaration (n + 1)) (declaration (m + 1)) := by
  rw [declaration, declaration]
  refine .accept_bind trivial ih.statement (fun keyword => ?_) (Or.inl (needs_statement n))
  exact (ih.functionDeclaration keyword).weaken (fun _ hk => hk) fun _ _ => trivial

theorem extends_functionDeclaration (keyword : Token) :
    ExtendsUpTo (fun _ => True) (functionDeclaration (n + 1) keyword) (functionDeclaration (m + 1) keyword) := by
  rw [functionDeclaration, functionDeclaration]
  refine .expect_bind trivial fun name => .expect_bind trivial fun opened => ?_
  refine Extends.before (Extends.sees (p := fun _ => True) .rightParen) (fun b => ?_) fun b => ?_
  · -- The rest is the same whether there are parameters or not.
    have tail : ∀ params : List String, ExtendsUpTo (fun _ => True)
        (expect .rightParen .parametersClose >>= fun _ => expect .leftBrace .functionBody >>= fun _ =>
          blockRest n >>= fun b => pure (Stmt.function name.lexeme params b.1 (keyword.span.through b.2.span)))
        (expect .rightParen .parametersClose >>= fun _ => expect .leftBrace .functionBody >>= fun _ =>
          blockRest m >>= fun b => pure (Stmt.function name.lexeme params b.1 (keyword.span.through b.2.span))) :=
      fun params => .expect_bind trivial fun closed => .expect_bind trivial fun brace =>
        .bind ih.blockRest fun body => .pure
    cases b with
    | true => exact .bind .pure tail
    | false => exact .before (extends_parameters _) tail fun _ => needs_expect
  · cases b with
    | true => exact needs_expect
    | false => exact needs_bind (needs_parameters _)

theorem extends_blockRest : ExtendsUpTo (fun _ => True) (blockRest (n + 1)) (blockRest (m + 1)) := by
  rw [blockRest, blockRest]
  refine .accept_bind trivial (.inside_bind ?_) (fun close => .pure) (Or.inl needs_inside)
  refine .before ih.declaration (fun s => ?_) fun s => needs_bind (needs_blockRest n)
  exact .bind ih.blockRest fun body => .pure

include h

theorem extends_statement : ExtendsUpTo (· ≠ .else) (statement (n + 1)) (statement (m + 1)) := by
  have hexpr := (expressions_extend h).expression
  -- A statement that ends with a token of its own leaves everything alone, `else` too.
  have close : ∀ {α : Type} {r r' : Reader α}, ExtendsUpTo (fun _ => True) r r' → ExtendsUpTo (· ≠ .else) r r' :=
    fun hr => hr.weaken (fun _ hk => hk) fun _ _ => trivial
  rw [statement, statement]
  refine .acceptAs_bind (fun _ _ _ => trivial) (close (extends_expressionStatement h)) (fun lead => ?_)
    (Or.inl (needs_expressionStatement n))
  obtain ⟨lead, keyword⟩ := lead
  cases lead with
  | ifLead =>
    refine .expect_bind trivial fun opened => .before hexpr (fun condition => ?_) fun _ => needs_expect
    refine .expect_bind trivial fun closed => .bind ih.statement fun yes => ?_
    refine .accept_bind trivial .pure (fun other => ?_) (Or.inr fun _ hk => hk)
    exact .bind ih.statement fun no => .pure
  | whileLead =>
    refine .expect_bind trivial fun opened => .before hexpr (fun condition => ?_) fun _ => needs_expect
    exact .expect_bind trivial fun closed => .bind ih.statement fun body => .pure
  | forLead =>
    refine .expect_bind trivial fun opened => .bind (close (extends_forStart h)) fun start => ?_
    refine .before (extends_optionalUntil h _) (fun condition => ?_) fun _ => needs_expect
    refine .expect_bind trivial fun middle => .before (extends_optionalUntil h _) (fun step => ?_) fun _ => needs_expect
    exact .expect_bind trivial fun closed => .bind ih.statement fun body => .pure
  | returnLead => exact close (extends_returnStatement h keyword)
  | printLead newline => exact close (extends_printStatement h newline keyword)
  | inputLead => exact close (extends_inputStatement h keyword)
  | blockLead => exact close (.bind ih.blockRest fun body => .pure)

end Step

/-- **Statements are read alike with more tokens behind**, unless these begin with `else`. -/
theorem statements_extend : ∀ {n m : Nat}, n ≤ m → StatementsExtend n m
  | 0, m, _ => by
    constructor <;> intros <;> simp only [declaration, functionDeclaration, blockRest, statement] <;> exact .exhausted
  | n + 1, 0, h => absurd h (Nat.not_succ_le_zero n)
  | n + 1, m + 1, h =>
    have hle := Nat.le_of_succ_le_succ h
    have ih := statements_extend hle
    { declaration := extends_declaration ih
      functionDeclaration := extends_functionDeclaration ih
      blockRest := extends_blockRest ih
      statement := extends_statement hle ih }

/-! ## Where a simple statement fails -/

/-- A reader that fails before it has taken a semicolon. -/
def Spares {α : Type} (r : Reader α) : Prop := ∀ (c c' : Cursor) (d : Diagnostic), r c = .failed d c' →
  ∃ used, c.ahead = used ++ c'.ahead ∧ ∀ t ∈ used, t.kind ≠ .semicolon

theorem Spares.bind {α β : Type} {K : TokenKind → Prop} {r r' : Reader α} {f : α → Reader β}
    (hr : Extends (· ≠ .semicolon) K r r') (hf : ∀ a, Spares (f a)) : Spares (r >>= f) := by
  intro c c' d h
  rcases Reader.bind_failed h with h | ⟨a, c₁, ha, h⟩
  · obtain ⟨used, hu, ht, -⟩ := hr.failed h
    exact ⟨used, hu, ht⟩
  · obtain ⟨used, hu, ht, -⟩ := hr.done ha
    obtain ⟨more, hm, ht'⟩ := hf a c₁ c' d h
    exact ⟨used ++ more, by rw [hu, hm, List.append_assoc], List.forall_mem_append.2 ⟨ht, ht'⟩⟩

/-- Nothing fails behind the semicolon that ends a statement. -/
theorem Spares.last {α : Type} {f : GrammarFault} {g : Token → α} :
    Spares (expect .semicolon f >>= fun t => pure (g t)) := by
  intro c c' d h
  rcases Reader.bind_failed h with h | ⟨a, c₁, -, h⟩
  · unfold expect at h
    split at h
    · split at h
      · cases h
      · cases h
        exact ⟨[], rfl, List.forall_mem_nil _⟩
    · cases h
      exact ⟨[], rfl, List.forall_mem_nil _⟩
  · cases h

theorem spares_expressionStatement (n : Nat) : Spares (expressionStatement n) := by
  unfold expressionStatement
  exact .bind (expressions_extend (Nat.le_refl n)).expression fun e => .last

theorem spares_inputStatement (n : Nat) (keyword : Token) : Spares (inputStatement n keyword) := by
  unfold inputStatement
  refine .bind (K := fun _ => True) (.expect (by decide)) fun opened => ?_
  refine .bind (extends_optionalUntil (Nat.le_refl n) _) fun prompt => ?_
  exact .bind (K := fun _ => True) (.expect (by decide)) fun closed => .last

end Grammar

end StepScript

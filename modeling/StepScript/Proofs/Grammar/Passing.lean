import StepScript.Grammar.Cursor

/-!
# How readers get through tokens

`Passes read N ts rest like next` says that a reader takes the tokens `ts` in front of `rest` and goes on as `next`
does, with something `like` asks for: for every bound from `N` on, and wherever it starts. A reader that is done after
`ts` is the case `Gets`.

There is one rule for each of the smallest readers and one for a reader in sequence (`Passes.read`), so a chain of
readers is followed token by token.
-/

namespace StepScript

open Reader

/-- The reader takes `ts` and goes on as `next` with something that is like what was asked for. -/
def Passes {α β : Type} (read : Nat → Reader β) (N : Nat) (ts rest : List Token) (like : α → Prop)
    (next : α → Nat → Reader β) : Prop :=
  ∀ latest, ∃ a latest', like a ∧ ∀ n ≥ N, read n ⟨latest, ts ++ rest⟩ = next a n ⟨latest', rest⟩

/-- The reader takes `ts` and comes back with something like what was asked for. -/
abbrev Gets {α : Type} (read : Nat → Reader α) (N : Nat) (ts rest : List Token) (like : α → Prop) : Prop :=
  Passes read N ts rest like fun a _ => pure a

/-- No token of the kind is next. -/
def Lacks (kind : TokenKind) (ts : List Token) : Prop := ∀ t ∈ ts.head?, t.kind ≠ kind

theorem Lacks.cons {kind : TokenKind} {t : Token} {ts : List Token} (h : t.kind ≠ kind) : Lacks kind (t :: ts) := by
  intro u hu
  cases hu
  exact h

/-- A kind that passes a test is none that does not. -/
theorem kind_ne_of_test {k kind : TokenKind} {f : TokenKind → Bool} (hk : f k = true) (h : f kind = false) :
    k ≠ kind := by
  rintro rfl
  rw [h] at hk
  cases hk

theorem Lacks.of_test {kind : TokenKind} {t : Token} {ts : List Token} {f : TokenKind → Bool} (ht : f t.kind = true)
    (hk : f kind = false) : Lacks kind (t :: ts) := .cons (kind_ne_of_test ht hk)

theorem Lacks.nil (kind : TokenKind) : Lacks kind [] := nofun

theorem Reader.bind_of_done {α β : Type} {r : Reader α} {f : α → Reader β} {c c' : Cursor} {a : α}
    (h : r c = .done a c') : (r >>= f) c = f a c' := by
  show Reader.bind r f c = f a c'
  unfold Reader.bind
  rw [h]

section Rules

variable {α β γ : Type} {reader : Nat → Reader β} {N : Nat} {ts us rest : List Token} {P : α → Prop} {Q : γ → Prop}
  {next : α → Nat → Reader β} {after : γ → Nat → Reader β}

/-- A larger bound does as well. -/
theorem Passes.le (h : Passes reader N ts rest P next) {M : Nat} (hM : N ≤ M) : Passes reader M ts rest P next := by
  intro latest
  obtain ⟨a, latest', ha, hr⟩ := h latest
  exact ⟨a, latest', ha, fun n hn => hr n (Nat.le_trans hM hn)⟩

theorem Passes.mono (h : Passes reader N ts rest P next) {P' : α → Prop} (hP : ∀ a, P a → P' a) :
    Passes reader N ts rest P' next := by
  intro latest
  obtain ⟨a, latest', ha, hr⟩ := h latest
  exact ⟨a, latest', hP a ha, hr⟩

/-- One passage after the other. -/
theorem Passes.trans (h : Passes reader N ts (us ++ rest) P next)
    (h' : ∀ a, P a → Passes (next a) N us rest Q after) : Passes reader N (ts ++ us) rest Q after := by
  intro latest
  obtain ⟨a, latest₁, ha, hr⟩ := h latest
  obtain ⟨c, latest₂, hc, hr'⟩ := h' a ha latest₁
  refine ⟨c, latest₂, hc, fun n hn => ?_⟩
  rw [List.append_assoc, hr n hn, hr' n hn]

/-- A passage after which no more tokens are taken. -/
theorem Passes.close (h : Passes reader N ts rest P next) (h' : ∀ a, P a → Passes (next a) N [] rest Q after) :
    Passes reader N ts rest Q after := by
  have hp := Passes.trans (by rwa [List.nil_append]) h'
  rwa [List.append_nil] at hp

/-- A reader with one more step to spend takes as much. -/
theorem Passes.succ (h : Passes (fun n => reader (n + 1)) N ts rest P fun a n => next a (n + 1)) :
    Passes reader (N + 1) ts rest P next := by
  intro latest
  obtain ⟨a, latest', ha, hr⟩ := h latest
  refine ⟨a, latest', ha, fun n hn => ?_⟩
  obtain ⟨k, rfl⟩ : ∃ k, n = k + 1 := ⟨n - 1, by omega⟩
  exact hr k (by omega)

theorem Passes.add {reader : Nat → Reader γ} {d : Nat} (h : Gets (fun n => reader (n + d)) N ts rest Q) :
    Gets reader (N + d) ts rest Q := by
  intro latest
  obtain ⟨c, latest', hc, hr⟩ := h latest
  refine ⟨c, latest', hc, fun n hn => ?_⟩
  obtain ⟨k, rfl⟩ : ∃ k, n = k + d := ⟨n - d, by omega⟩
  exact hr k (by omega)

/-- The same passage seen with one more step to spend. -/
theorem Passes.pred (h : Passes reader N ts rest P next) :
    Passes (fun n => reader (n + 1)) N ts rest P fun a n => next a (n + 1) := by
  intro latest
  obtain ⟨a, latest', ha, hr⟩ := h latest
  exact ⟨a, latest', ha, fun n hn => hr (n + 1) (by omega)⟩

/-- A reader that has come to where it goes on. -/
theorem Passes.here (c : γ) (hc : Q c) (h : ∀ n, reader n = after c n) : Passes reader N [] rest Q after :=
  fun latest => ⟨c, latest, hc, fun n _ => congrFun (h n) ⟨latest, rest⟩⟩

/-- A reader that comes back at once. -/
theorem Passes.pure {c : γ} (hc : Q c) : Gets (fun _ => Pure.pure c) N [] rest Q :=
  fun latest => ⟨c, latest, hc, fun _ _ => rfl⟩

/-- A reader in sequence. -/
theorem Passes.read {r : Nat → Reader α} (h : Gets r N ts (us ++ rest) P)
    (h' : ∀ a, P a → Passes (next a) N us rest Q after) :
    Passes (fun n => r n >>= fun a => next a n) N (ts ++ us) rest Q after := by
  intro latest
  obtain ⟨a, latest₁, ha, hr⟩ := h latest
  obtain ⟨c, latest₂, hc, hr'⟩ := h' a ha latest₁
  refine ⟨c, latest₂, hc, fun n hn => ?_⟩
  rw [List.append_assoc, ← hr' n hn]
  exact bind_of_done (hr n hn)

/-- A reader in sequence whose tokens are the last ones taken. -/
theorem Passes.last {r : Nat → Reader α} (h : Gets r N ts rest P) (h' : ∀ a, P a → Passes (next a) N [] rest Q after) :
    Passes (fun n => r n >>= fun a => next a n) N ts rest Q after := by
  have hp := Passes.read (by rwa [List.nil_append]) h'
  rwa [List.append_nil] at hp

/-- What a reader gets can be changed afterwards. -/
theorem Passes.map {r : Nat → Reader α} (h : Gets r N ts rest P) {f : α → γ} (hf : ∀ a, P a → Q (f a)) :
    Gets (fun n => f <$> r n) N ts rest Q := by
  intro latest
  obtain ⟨a, latest', ha, hr⟩ := h latest
  exact ⟨f a, latest', hf a ha, fun n hn => bind_of_done (hr n hn)⟩

/-! ## Single tokens -/

section Tokens

variable {r : Reader α} {a : α}

/-- A reader that takes a token. -/
theorem Passes.token {t : Token}
    (hr : ∀ latest, r ⟨latest, t :: (us ++ rest)⟩ = .done a ⟨some t, us ++ rest⟩)
    (h : Passes (next a) N us rest Q after) : Passes (fun n => r >>= fun a => next a n) N (t :: us) rest Q after := by
  intro latest
  obtain ⟨c, latest', hc, hn⟩ := h (some t)
  refine ⟨c, latest', hc, fun n hN => ?_⟩
  rw [← hn n hN]
  exact bind_of_done (hr latest)

/-- A reader that only looks. -/
theorem Passes.look (hr : ∀ latest, r ⟨latest, us ++ rest⟩ = .done a ⟨latest, us ++ rest⟩)
    (h : Passes (next a) N us rest Q after) : Passes (fun n => r >>= fun a => next a n) N us rest Q after := by
  intro latest
  obtain ⟨c, latest', hc, hn⟩ := h latest
  refine ⟨c, latest', hc, fun n hN => ?_⟩
  rw [← hn n hN]
  exact bind_of_done (hr latest)

end Tokens

section Kinds

variable {t : Token} {kind : TokenKind}

theorem Passes.expect {f : GrammarFault} {next : Token → Nat → Reader β} (hk : t.kind = kind)
    (h : Passes (next t) N us rest Q after) :
    Passes (fun n => Reader.expect kind f >>= fun a => next a n) N (t :: us) rest Q after :=
  .token (fun _ => by simp [Reader.expect, hk]) h

theorem Passes.accept {next : Option Token → Nat → Reader β} (hk : t.kind = kind)
    (h : Passes (next (some t)) N us rest Q after) :
    Passes (fun n => Reader.accept kind >>= fun a => next a n) N (t :: us) rest Q after :=
  .token (fun _ => by simp [Reader.accept, hk]) h

theorem Passes.acceptAs {classify : TokenKind → Option α} {a : α} {next : Option (α × Token) → Nat → Reader β}
    (hk : classify t.kind = some a) (h : Passes (next (some (a, t))) N us rest Q after) :
    Passes (fun n => Reader.acceptAs classify >>= fun a => next a n) N (t :: us) rest Q after :=
  .token (fun _ => by simp [Reader.acceptAs, hk]) h

theorem Passes.skip {next : Option Token → Nat → Reader β} (hk : Lacks kind (us ++ rest))
    (h : Passes (next none) N us rest Q after) :
    Passes (fun n => Reader.accept kind >>= fun a => next a n) N us rest Q after := by
  refine .look (fun latest => ?_) h
  generalize us ++ rest = vs at hk
  cases vs with
  | nil => rfl
  | cons t vs => simp [Reader.accept, hk t rfl]

theorem Passes.skipAs {classify : TokenKind → Option α} {next : Option (α × Token) → Nat → Reader β}
    (hk : ∀ t ∈ (us ++ rest).head?, classify t.kind = none) (h : Passes (next none) N us rest Q after) :
    Passes (fun n => Reader.acceptAs classify >>= fun a => next a n) N us rest Q after := by
  refine .look (fun latest => ?_) h
  generalize us ++ rest = vs at hk
  cases vs with
  | nil => rfl
  | cons t vs => simp [Reader.acceptAs, hk t rfl]

theorem Passes.sees {next : Bool → Nat → Reader β} {vs : List Token} (hv : us ++ rest = t :: vs) (hk : t.kind = kind)
    (h : Passes (next true) N us rest Q after) :
    Passes (fun n => Reader.sees kind >>= fun b => next b n) N us rest Q after :=
  .look (fun _ => by simp [Reader.sees, Cursor.sees, hv, hk]) h

theorem Passes.unseen {next : Bool → Nat → Reader β} (hk : Lacks kind (us ++ rest))
    (h : Passes (next false) N us rest Q after) :
    Passes (fun n => Reader.sees kind >>= fun b => next b n) N us rest Q after := by
  refine .look (fun latest => ?_) h
  generalize us ++ rest = vs at hk
  cases vs with
  | nil => rfl
  | cons t vs => simp [Reader.sees, Cursor.sees, hk t rfl]

theorem Passes.inside {next : Bool → Nat → Reader β} (hv : us ++ rest ≠ [])
    (h : Passes (next false) N us rest Q after) :
    Passes (fun n => Reader.atEnd >>= fun b => next b n) N us rest Q after :=
  .look (fun _ => by simp only [Reader.atEnd, Cursor.atEnd, List.isEmpty_eq_false_iff.2 hv]) h

end Kinds

end Rules

end StepScript

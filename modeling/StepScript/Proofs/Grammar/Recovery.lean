import StepScript.Proofs.Grammar.Bounds
import StepScript.Proofs.Grammar.Closing
import StepScript.Proofs.Grammar.Completeness
import StepScript.Proofs.Grammar.Extension

/-!
# Reading past mistakes

Reading that stops at the first mistake and reading that goes on behind it take the same declarations up to there. So
they agree on which texts are without mistakes and on the first mistake of the others (`parse_agrees`).

Behind a mistake, reading goes on where the next statement begins, if the mistake is in a segment of tokens that is
plain enough: its only semicolon is its last token, and no word in it starts a statement (`Plain`). A list of such
segments and of statements is read segment by segment, each one as it is read on its own (`parseRecovering_segments`).
-/

namespace StepScript.Grammar

open Reader

/-! ## The two ways to read a program -/

/-- Declarations that are read one after the other without a mistake, with the places before and after them. -/
inductive Accepts (n : Nat) : Cursor → List Stmt → Cursor → Prop
  | nil (c : Cursor) : Accepts n c [] c
  | cons {c c₁ c₂ : Cursor} {s : Stmt} {ss : List Stmt} : c.atEnd = false → nextDeclaration n c = (.ok s, c₁) →
      Accepts n c₁ ss c₂ → Accepts n c (s :: ss) c₂

/-- What is accepted before a mistake does not depend on what stands for the latest token. -/
theorem Accepts.start {n : Nat} {l : Option Token} {ts : List Token} {ss : List Stmt} {e : Diagnostic}
    {place place' : Cursor} (hts : ts ≠ []) (h : Accepts n ⟨l, ts⟩ ss place)
    (he : nextDeclaration n place = (.error e, place')) (l' : Option Token) :
    ∃ place place', Accepts n ⟨l', ts⟩ ss place ∧ nextDeclaration n place = (.error e, place') := by
  obtain ⟨t, ts, rfl⟩ := List.exists_cons_of_ne_nil hts
  have hstart := nextDeclaration_start n l l' t ts
  cases h with
  | nil =>
    rcases hstart with ⟨s, c, h, -⟩ | ⟨d, c, c', h, h', -⟩
    · cases he.symm.trans h
    · cases he.symm.trans h
      exact ⟨_, _, .nil _, h'⟩
  | cons hend hs hss =>
    rcases hstart with ⟨s, c, h, h'⟩ | ⟨d, c, c', h, -, -⟩
    · cases hs.symm.trans h
      exact ⟨_, _, .cons hend h' hss, he⟩
    · cases hs.symm.trans h

section Drivers

/-- Reading past mistakes only adds to what was found before. -/
theorem declarationsRecovering_adds (n : Nat) :
    ∀ (turns : Nat) (done : List Stmt) (problems : List Diagnostic) (c : Cursor), ∃ ss ds,
      declarationsRecovering n done problems turns c = (done.reverse ++ ss, problems.reverse ++ ds)
  | 0, done, problems, c => ⟨[], [], by simp [declarationsRecovering]⟩
  | turns + 1, done, problems, c => by
    rw [declarationsRecovering]
    split
    · exact ⟨[], [], by simp⟩
    · split
      · rename_i s c' _
        obtain ⟨ss, ds, h⟩ := declarationsRecovering_adds n turns (s :: done) problems c'
        exact ⟨s :: ss, ds, by simp [h]⟩
      · rename_i d c' _
        obtain ⟨ss, ds, h⟩ := declarationsRecovering_adds n turns done (d :: problems) (synchronize c')
        exact ⟨ss, d :: ds, by simp [h]⟩

variable {n : Nat}

/-- Where there is no mistake, none is found and nothing is lost. -/
theorem declarationsRecovering_of_ok {p : Program} (problems : List Diagnostic) :
    ∀ {turns : Nat} {done : List Stmt} {c : Cursor}, declarations n done turns c = .ok p →
      declarationsRecovering n done problems turns c = (p, problems.reverse)
  | 0, done, c, h => by
    cases h
    rfl
  | turns + 1, done, c, h => by
    rw [declarations] at h
    rw [declarationsRecovering]
    split at h
    · rename_i he
      cases h
      rw [if_pos he]
    · rename_i he
      rw [if_neg he]
      split at h
      · rename_i s c' hn
        exact declarationsRecovering_of_ok problems h
      · cases h

/-- The first mistake is found, behind the declarations that are read before it. -/
theorem declarationsRecovering_of_error {e : Diagnostic} (problems : List Diagnostic) :
    ∀ {turns : Nat} {done : List Stmt} {c : Cursor}, declarations n done turns c = .error e →
      ∃ accepted place place' ss ds, Accepts n c accepted place ∧ nextDeclaration n place = (.error e, place') ∧
        declarationsRecovering n done problems turns c =
          (done.reverse ++ (accepted ++ ss), problems.reverse ++ e :: ds)
  | 0, done, c, h => by cases h
  | turns + 1, done, c, h => by
    rw [declarations] at h
    rw [declarationsRecovering]
    split at h
    · cases h
    · rename_i he
      rw [if_neg he]
      split at h
      · rename_i s c' hn
        obtain ⟨accepted, place, place', ss, ds, ha, hp, hr⟩ := declarationsRecovering_of_error problems h
        refine ⟨s :: accepted, place, place', ss, ds, .cons (Bool.eq_false_iff.2 he) hn ha, hp, ?_⟩
        simp only [hr, List.reverse_cons, List.append_assoc, List.cons_append, List.nil_append]
      · rename_i d c' hn
        cases h
        obtain ⟨ss, ds, hr⟩ := declarationsRecovering_adds n turns done (e :: problems) (synchronize c')
        refine ⟨[], c, c', ss, ds, .nil c, hn, ?_⟩
        simp [hr]

end Drivers

theorem parseRecovering_of_error {tokens : List Token} {e : Diagnostic} (h : parse tokens = .error e) :
    ∃ accepted place place' ss ds,
      Accepts (bound (Cursor.ofTokens tokens).ahead.length) (Cursor.ofTokens tokens) accepted place ∧
      nextDeclaration (bound (Cursor.ofTokens tokens).ahead.length) place = (.error e, place') ∧
      parseRecovering tokens = (accepted ++ ss, e :: ds) :=
  declarationsRecovering_of_error [] h

/-- Reading past mistakes finds none exactly where reading up to the first one comes to the end. -/
theorem parse_ok_iff (tokens : List Token) (program : Program) :
    parse tokens = .ok program ↔ parseRecovering tokens = (program, []) := by
  refine ⟨declarationsRecovering_of_ok [], fun h => ?_⟩
  cases hp : parse tokens with
  | ok p =>
    have hr : parseRecovering tokens = (p, []) := declarationsRecovering_of_ok [] hp
    rw [h] at hr
    cases hr
    rfl
  | error e =>
    obtain ⟨_, _, _, _, _, -, -, hr⟩ := parseRecovering_of_error hp
    rw [h] at hr
    cases hr

/-- A text is without mistakes exactly if it compiles. -/
theorem check_eq_nil_iff (source : String) : check source = [] ↔ ∃ program, compile source = .ok program := by
  unfold check survey compile
  cases scan source with
  | error d =>
    constructor
    · intro h
      cases h
    · rintro ⟨_, h⟩
      cases h
  | ok tokens =>
    refine ⟨fun h => ⟨(parseRecovering tokens).1, (parse_ok_iff tokens _).2 (Prod.ext rfl h)⟩, ?_⟩
    rintro ⟨program, h⟩
    exact congrArg Prod.snd ((parse_ok_iff tokens program).1 h)

/-- The first mistake of a text is the one that it does not compile for. -/
theorem check_head_of_error {source : String} {e : Diagnostic} (h : compile source = .error e) :
    (check source).head? = some e := by
  unfold compile at h
  unfold check survey
  cases hs : scan source with
  | error d =>
    rw [hs] at h
    cases h
    rfl
  | ok tokens =>
    rw [hs] at h
    obtain ⟨_, _, _, _, _, -, -, hr⟩ := parseRecovering_of_error h
    exact congrArg (·.2.head?) hr

/-- **Reading up to the first mistake and reading past all of them agree.** They accept the same lists of tokens, as the
same programs. Otherwise the mistake that the one stops at is the first that the other finds, and what the other keeps
begins with the declarations read before it. So the mistakes listed of a text are none exactly if it compiles, and begin
with the one that it does not compile for. -/
theorem parse_agrees :
    (∀ tokens program, parse tokens = .ok program ↔ parseRecovering tokens = (program, [])) ∧
    (∀ tokens e, parse tokens = .error e → (parseRecovering tokens).2.head? = some e ∧
      ∃ accepted place place',
        Accepts (bound (Cursor.ofTokens tokens).ahead.length) (Cursor.ofTokens tokens) accepted place ∧
        nextDeclaration (bound (Cursor.ofTokens tokens).ahead.length) place = (.error e, place') ∧
        accepted <+: (parseRecovering tokens).1) ∧
    (∀ source, check source = [] ↔ ∃ program, compile source = .ok program) ∧
    ∀ source e, compile source = .error e → (check source).head? = some e := by
  refine ⟨parse_ok_iff, fun tokens e h => ?_, check_eq_nil_iff, fun source e => check_head_of_error⟩
  obtain ⟨accepted, place, place', ss, ds, ha, hn, hr⟩ := parseRecovering_of_error h
  rw [hr]
  exact ⟨rfl, accepted, place, place', ha, hn, List.prefix_append accepted ss⟩

/-- The tokens of `x = ;`, which are no statement. -/
def hollowAssignment : List Token :=
  [(.identifier, "x"), (.equal, "="), (.semicolon, ";")].map fun t => ⟨t.1, t.2, none, ⟨0, 0, 1⟩⟩

/-- The tokens of `if (y) z;`. -/
def danglingBranch : List Token :=
  [(.if, "if"), (.leftParen, "("), (.identifier, "y"), (.rightParen, ")"), (.identifier, "z"),
    (.semicolon, ";")].map fun t => ⟨t.1, t.2, none, ⟨0, 0, 1⟩⟩

/-- The mistake behind the branch is the first one found, and the branch is kept. -/
theorem parse_agrees_danglingBranch : ∃ e, parse (danglingBranch ++ hollowAssignment) = .error e ∧
    (parseRecovering (danglingBranch ++ hollowAssignment)).2.head? = some e ∧
    ∃ accepted place place', Accepts (bound 9) ⟨none, danglingBranch ++ hollowAssignment⟩ accepted place ∧
      nextDeclaration (bound 9) place = (.error e, place') ∧
      accepted <+: (parseRecovering (danglingBranch ++ hollowAssignment)).1 := by
  obtain ⟨hhead, accepted, place, place', ha, hn, hkept⟩ := parse_agrees.2.1 (danglingBranch ++ hollowAssignment) _ rfl
  have hts : danglingBranch ++ hollowAssignment ≠ [] := List.cons_ne_nil _ _
  obtain ⟨place₁, place₁', ha₁, hn₁⟩ := Accepts.start hts ha hn none
  exact ⟨_, rfl, hhead, accepted, place₁, place₁', ha₁, hn₁, hkept⟩

/-! ## Segments of tokens -/

/-- Tokens that end in their only semicolon, with no word in them that starts a statement, no brace or `else` that they
begin with, and without the end of the text. -/
structure Plain (ts : List Token) : Prop where
  inner : Inner ts
  ends : ∃ body semicolon, ts = body ++ [semicolon] ∧ semicolon.kind = .semicolon ∧ ∀ t ∈ body, t.kind ≠ .semicolon
  wordless : ∀ t ∈ ts, t.kind ∉ [.function, .if, .while, .for, .return, .print, .printLine]
  begins : ∀ t ∈ ts.head?, t.kind ≠ .leftBrace ∧ t.kind ≠ .else

/-- Tokens that are a statement on their own, or plain ones that are none, with what reading them comes to. -/
inductive Segment (ts : List Token) : Except Diagnostic Stmt → Prop
  | accepted {s : Stmt} {c : Cursor} : nextDeclaration (bound ts.length) ⟨none, ts⟩ = (.ok s, c) → c.atEnd = true →
      Segment ts (.ok s)
  | malformed {d : Diagnostic} {c : Cursor} : Plain ts → nextDeclaration (bound ts.length) ⟨none, ts⟩ = (.error d, c) →
      Segment ts (.error d)

/-- The mistake that reading a segment comes to, if any. -/
def problem? : Except Diagnostic Stmt → Option Diagnostic
  | .ok _ => none
  | .error d => some d

theorem nextDeclaration_ok_iff {n : Nat} {c c' : Cursor} {s : Stmt} :
    nextDeclaration n c = (.ok s, c') ↔ declaration n c = .done s c' := by
  unfold nextDeclaration
  cases declaration n c <;> simp

/-- With the bound that the tokens are given, a mistake is one of the declaration. -/
theorem nextDeclaration_error_iff {n : Nat} {c c' : Cursor} {d : Diagnostic} (h : bound c.ahead.length ≤ n) :
    nextDeclaration n c = (.error d, c') ↔ declaration n c = .failed d c' := by
  unfold nextDeclaration
  cases hd : declaration n c with
  | done => simp
  | failed => simp
  | exhausted => exact absurd hd (declaration_returns h)

theorem startsStatement_eq_false {k : TokenKind}
    (h : k ∉ [TokenKind.function, .if, .while, .for, .return, .print, .printLine]) : startsStatement k = false := by
  unfold startsStatement
  split <;> simp_all

section Skip

variable {semicolon : Token} (hs : semicolon.kind = .semicolon)
include hs

theorem skip_semicolon (rest : List Token) : skip (some semicolon) rest = ⟨some semicolon, rest⟩ := by
  cases rest with
  | nil => rfl
  | cons t ts => rw [skip, if_pos (by simp [hs])]

/-- Up to the semicolon, everything is skipped. -/
theorem skip_to_semicolon {rest : List Token} : ∀ {body : List Token} {latest : Option Token},
    (∀ t ∈ latest, t.kind ≠ .semicolon) → (∀ t ∈ body, t.kind ≠ .semicolon) →
    (∀ t ∈ body, startsStatement t.kind = false) → skip latest (body ++ semicolon :: rest) = ⟨some semicolon, rest⟩
  | [], latest, hl, _, _ => by
    have hstop : ¬(latest.any (·.kind == .semicolon) || startsStatement semicolon.kind) = true := by
      cases latest <;> simp_all [startsStatement]
    rw [List.nil_append, skip, if_neg hstop]
    exact skip_semicolon hs rest
  | t :: body, latest, hl, hb, hw => by
    have hstop : ¬(latest.any (·.kind == .semicolon) || startsStatement t.kind) = true := by
      cases latest <;> simp_all
    rw [List.cons_append, skip, if_neg hstop]
    refine skip_to_semicolon (fun u hu => ?_) (fun u hu => hb u (.tail t hu)) fun u hu => hw u (.tail t hu)
    cases hu
    exact hb t (.head body)

end Skip

namespace Plain

variable {ts : List Token} (h : Plain ts)
include h

/-- Plain tokens that are no statement go wrong before or at their semicolon. -/
theorem fails_before_semicolon {n : Nat} {c : Cursor} {d : Diagnostic} (hd : declaration n ⟨none, ts⟩ = .failed d c) :
    ∃ used, ts = used ++ c.ahead ∧ ∀ t ∈ used, t.kind ≠ .semicolon := by
  obtain ⟨t, us, rfl⟩ : ∃ t us, ts = t :: us := by
    obtain ⟨body, semicolon, rfl, -⟩ := h.ends
    cases body <;> exact ⟨_, _, rfl⟩
  have hw := h.wordless t (.head us)
  have hb := h.begins t rfl
  cases n with
  | zero => cases hd
  | succ n =>
    have hf : accept .function ⟨none, t :: us⟩ = .done none ⟨none, t :: us⟩ :=
      if_neg fun hk => hw (by simp [hk])
    rw [declaration, bind_of_done hf] at hd
    cases n with
    | zero => cases hd
    | succ n =>
      change statement (n + 1) ⟨none, t :: us⟩ = _ at hd
      rw [statement] at hd
      cases hl : lead? t.kind with
      | none =>
        have ha : acceptAs lead? ⟨none, t :: us⟩ = .done none ⟨none, t :: us⟩ := by simp only [acceptAs, hl]
        rw [bind_of_done ha] at hd
        exact spares_expressionStatement n _ c d hd
      | some lead =>
        have ha : acceptAs lead? ⟨none, t :: us⟩ = .done (some (lead, t)) ⟨some t, us⟩ := by simp only [acceptAs, hl]
        rw [bind_of_done ha] at hd
        have hk := lead_kind hl
        -- The one word left that starts a statement is that for input.
        cases lead with
        | inputLead =>
          obtain ⟨used, hu, hs⟩ := spares_inputStatement n t _ c d hd
          have ht : t.kind ≠ .semicolon := fun hs => by cases hk.symm.trans hs
          exact ⟨t :: used, congrArg (t :: ·) hu, List.forall_mem_cons.2 ⟨ht, hs⟩⟩
        | blockLead => exact absurd hk hb.1
        | printLead newline => cases newline <;> exact absurd hk (fun hk => hw (by simp [hk]))
        | _ => exact absurd hk (fun hk => hw (by simp [hk]))

/-- Behind a mistake in plain tokens, reading goes on behind their semicolon. -/
theorem synchronize_behind {used left : List Token} (hl : ts = used ++ left) (hu : ∀ t ∈ used, t.kind ≠ .semicolon)
    (latest : Option Token) (rest : List Token) : ∃ latest', synchronize ⟨latest, left ++ rest⟩ = ⟨latest', rest⟩ := by
  obtain ⟨body, semicolon, hts, hs, hb⟩ := h.ends
  -- What is left ends in the semicolon, since none was used.
  obtain ⟨body', hleft, hsuffix⟩ : ∃ body', left = body' ++ [semicolon] ∧ body' <:+ body := by
    rcases List.append_eq_append_iff.1 (hts.symm.trans hl) with ⟨as, ha, hsemi⟩ | ⟨cs, hc, hleft⟩
    · cases as with
      | nil => exact ⟨[], hsemi.symm, List.nil_suffix⟩
      | cons a as =>
        obtain ⟨rfl, -⟩ := List.cons.inj hsemi
        exact absurd hs (hu semicolon (ha ▸ by simp))
    · exact ⟨cs, hleft, used, hc.symm⟩
  refine ⟨some semicolon, ?_⟩
  rw [hleft, List.append_assoc, List.singleton_append]
  cases body' with
  | nil => exact skip_semicolon hs rest
  | cons t body' =>
    have hmem : ∀ u ∈ t :: body', u ∈ body := fun u hu => hsuffix.subset hu
    refine skip_to_semicolon hs (fun u hu => ?_) (fun u hu => hb u (hmem u (.tail t hu))) fun u hu => ?_
    · cases hu
      exact hb t (hmem t (.head body'))
    · exact startsStatement_eq_false (h.wordless u (hts ▸ List.mem_append_left _ (hmem u (.tail t hu))))

end Plain

namespace Segment

variable {ts : List Token}

theorem declares {s : Stmt} (h : Segment ts (.ok s)) : Declares ts s := by
  cases h with
  | @accepted s c hn he =>
    obtain ⟨used, hu, hd, -⟩ := nextDeclaration_ok hn
    have hc : c.ahead = [] := by simpa [Cursor.atEnd] using he
    rw [hc, List.append_nil] at hu
    change ts = used at hu
    exact hu ▸ hd

theorem plain {d : Diagnostic} (h : Segment ts (.error d)) : Plain ts := by
  cases h with
  | malformed hp _ => exact hp

theorem inner {outcome : Except Diagnostic Stmt} (h : Segment ts outcome) : Inner ts := by
  cases outcome with
  | ok s => exact h.declares.inner
  | error d => exact h.plain.inner

/-- A segment has tokens, and does not begin with `else`. -/
theorem starts {outcome : Except Diagnostic Stmt} (h : Segment ts outcome) :
    ∃ t us, ts = t :: us ∧ t.kind ≠ .else := by
  cases outcome with
  | ok s =>
    obtain ⟨t, us, rfl, -⟩ := h.declares.starts
    exact ⟨t, us, rfl, h.declares.lacks (Or.inr rfl) [] t rfl⟩
  | error d =>
    obtain ⟨body, semicolon, rfl, -⟩ := h.plain.ends
    cases body with
    | nil => exact ⟨_, _, rfl, (h.plain.begins _ rfl).2⟩
    | cons t body => exact ⟨_, _, rfl, (h.plain.begins _ rfl).2⟩

/-- **One segment is one turn**: it is kept or reported as on its own, and reading goes on right behind it. -/
theorem turn {outcome : Except Diagnostic Stmt} (h : Segment ts outcome) {n : Nat} (hn : bound ts.length ≤ n)
    {rest : List Token} (hr : Lacks .else rest) (done : List Stmt) (problems : List Diagnostic) (turns : Nat)
    (latest : Option Token) : ∃ latest', declarationsRecovering n done problems (turns + 1) ⟨latest, ts ++ rest⟩ =
      declarationsRecovering n (outcome.toOption.toList ++ done) ((problem? outcome).toList ++ problems) turns
        ⟨latest', rest⟩ := by
  have hend : ¬Cursor.atEnd ⟨latest, ts ++ rest⟩ = true := by
    obtain ⟨t, us, rfl, -⟩ := h.starts
    simp [Cursor.atEnd]
  have hextends := (statements_extend hn).declaration
  cases h with
  | @accepted s c hs he =>
    have hc : c.ahead = [] := by simpa [Cursor.atEnd] using he
    obtain ⟨-, -, -, hx⟩ := hextends.done (nextDeclaration_ok_iff.1 hs)
    obtain ⟨latest', hd⟩ := hx latest rest fun _ => hr
    rw [hc, List.nil_append] at hd
    refine ⟨latest', ?_⟩
    rw [declarationsRecovering, if_neg hend, nextDeclaration_ok_iff.2 hd]
    rfl
  | @malformed d c hp hd =>
    have hfail := (nextDeclaration_error_iff (c := ⟨none, ts⟩) (Nat.le_refl (bound ts.length))).1 hd
    obtain ⟨used, hu, hs⟩ := hp.fails_before_semicolon hfail
    obtain ⟨-, -, -, hx⟩ := hextends.failed hfail
    have hleft : c.ahead ≠ [] := by
      obtain ⟨body, semicolon, hts, hsemi, -⟩ := hp.ends
      intro hc
      rw [hc, List.append_nil] at hu
      exact hs semicolon (hu ▸ hts ▸ by simp) hsemi
    obtain ⟨l, hl⟩ := hx hleft latest rest
    obtain ⟨latest', hsync⟩ := hp.synchronize_behind hu hs l rest
    refine ⟨latest', ?_⟩
    have hnext : nextDeclaration n ⟨latest, ts ++ rest⟩ = (.error d, ⟨l, c.ahead ++ rest⟩) := by
      unfold nextDeclaration
      rw [hl]
    rw [declarationsRecovering, if_neg hend, hnext]
    dsimp only
    rw [hsync]
    rfl

end Segment

section Segments

variable {parts : List (List Token × Except Diagnostic Stmt)}

theorem lacks_else_segments (h : ∀ part ∈ parts, Segment part.1 part.2) : Lacks .else (parts.map Prod.fst).flatten := by
  cases parts with
  | nil => exact .nil .else
  | cons part parts =>
    obtain ⟨t, us, ht, hk⟩ := (h part (.head parts)).starts
    rw [List.map_cons, List.flatten_cons, ht]
    exact .cons hk

theorem inner_segments (h : ∀ part ∈ parts, Segment part.1 part.2) : Inner (parts.map Prod.fst).flatten := by
  intro t ht
  obtain ⟨ts, hts, hm⟩ := List.mem_flatten.1 ht
  obtain ⟨part, hp, rfl⟩ := List.mem_map.1 hts
  exact (h part hp).inner t hm

/-- Segments are read one after the other. -/
theorem declarationsRecovering_segments {n : Nat} : ∀ {parts : List (List Token × Except Diagnostic Stmt)},
    (∀ part ∈ parts, Segment part.1 part.2) → bound (parts.map Prod.fst).flatten.length ≤ n →
    ∀ {turns : Nat} (done : List Stmt) (problems : List Diagnostic) (latest : Option Token),
      (parts.map Prod.fst).flatten.length ≤ turns →
      declarationsRecovering n done problems turns ⟨latest, (parts.map Prod.fst).flatten⟩ =
        (done.reverse ++ parts.filterMap (·.2.toOption), problems.reverse ++ parts.filterMap (problem? ·.2))
  | [], _, _, turns, done, problems, latest, _ => by
    cases turns <;> simp [declarationsRecovering, Cursor.atEnd]
  | (ts, outcome) :: parts, h, hn, turns, done, problems, latest, ht => by
    have hts : Segment ts outcome := h _ (.head parts)
    have hparts : ∀ part ∈ parts, Segment part.1 part.2 := fun part hp => h part (.tail _ hp)
    simp only [List.map_cons, List.flatten_cons, List.length_append] at hn ht
    have hpos : 0 < ts.length := by
      obtain ⟨t, us, rfl, -⟩ := hts.starts
      exact Nat.succ_pos _
    obtain ⟨k, rfl⟩ : ∃ k, turns = k + 1 := ⟨turns - 1, by omega⟩
    have hfirst : bound ts.length ≤ n := by unfold bound at hn ⊢; omega
    have hrest : bound (parts.map Prod.fst).flatten.length ≤ n := by unfold bound at hn ⊢; omega
    obtain ⟨latest', hturn⟩ := hts.turn hfirst (lacks_else_segments hparts) done problems k latest
    have ht' : (parts.map Prod.fst).flatten.length ≤ k := by omega
    rw [List.map_cons, List.flatten_cons, hturn, declarationsRecovering_segments hparts hrest _ _ latest' ht']
    cases outcome <;> simp [Except.toOption, problem?]

/-- **A mistake stays in its segment.** A list of tokens that is made of statements and of plain segments that are none,
up to the end of the text, is read segment by segment: the statements are kept, in order and with the trees that they
have on their own, and there is one mistake for each of the others, in order, the one that it has on its own. -/
theorem parseRecovering_segments (h : ∀ part ∈ parts, Segment part.1 part.2) {tail : List Token}
    (ht : ∀ t ∈ tail.head?, t.isEof = true) : parseRecovering ((parts.map Prod.fst).flatten ++ tail) =
      (parts.filterMap (·.2.toOption), parts.filterMap (problem? ·.2)) := by
  have hstart : Cursor.ofTokens ((parts.map Prod.fst).flatten ++ tail) =
      ⟨some (closingToken ((parts.map Prod.fst).flatten ++ tail)), (parts.map Prod.fst).flatten⟩ := by
    unfold Cursor.ofTokens
    rw [List.takeWhile_append_of_pos fun t ht => by simpa [Token.isEof] using inner_segments h t ht]
    cases tail with
    | nil => simp
    | cons t tail => simp [ht t rfl]
  rw [parseRecovering, hstart]
  exact declarationsRecovering_segments h (Nat.le_refl _) [] [] _ (Nat.le_succ _)

end Segments

theorem plain_hollowAssignment : Plain hollowAssignment where
  inner := by unfold Inner; decide
  ends := ⟨hollowAssignment.dropLast, _, rfl, rfl, by decide⟩
  wordless := by decide
  begins := by decide

/-- The mistake before the branch and the one behind it are found, and the branch is kept. -/
theorem parseRecovering_segments_danglingBranch : ∃ s d,
    parseRecovering (hollowAssignment ++ (danglingBranch ++ (hollowAssignment ++ [])) ++
      [⟨.eof, "", none, ⟨0, 0, 1⟩⟩]) = ([s], [d, d]) := by
  obtain ⟨d, hbad⟩ : ∃ d, Segment hollowAssignment (.error d) := ⟨_, .malformed plain_hollowAssignment rfl⟩
  obtain ⟨s, hgood⟩ : ∃ s, Segment danglingBranch (.ok s) := ⟨_, .accepted rfl rfl⟩
  refine ⟨s, d, ?_⟩
  refine @parseRecovering_segments [(hollowAssignment, .error d), (danglingBranch, .ok s),
    (hollowAssignment, .error d)] ?_ [⟨.eof, "", none, ⟨0, 0, 1⟩⟩] (by decide)
  simp only [List.forall_mem_cons]
  exact ⟨hbad, hgood, hbad, List.forall_mem_nil _⟩

end StepScript.Grammar

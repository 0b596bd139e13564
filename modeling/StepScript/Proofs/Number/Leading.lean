import StepScript.Number.Leading
import StepScript.Proofs.Number.Signed
import StepScript.Proofs.Text.Bytes

/-!
# The longest number at the start of a text

The end of a decimal is found byte by byte, going back where a point or an exponent lacks its digits. What is found is
the longest decimal that the text starts with (`decimal_or_none`): no decimal goes beyond the digits and the point
taken first (`mantissa_or_none`), and an exponent can only stand behind all of these (`exists_exponent`), since neither
a digit nor a point begins one. The walk never ends inside a character because all that it passes is ASCII.

Digits of a whole number are taken one by one (`takeDigits_run`).
-/

namespace StepScript.Number

/-! ## What a number looks like -/

/-- Decimal digits and nothing else. -/
def Digits (ds : List Char) : Prop := ∀ d ∈ ds, isDigit d = true

/-- Digits, or digits around a point, on one side of it at least; what stands before the point and behind it. -/
inductive Mantissa : List Char → List Char → List Char → Prop
  | whole {ds : List Char} : Digits ds → ds ≠ [] → Mantissa ds ds []
  | pointed {ds fs : List Char} : Digits ds → Digits fs → ds ≠ [] ∨ fs ≠ [] → Mantissa (ds ++ '.' :: fs) ds fs

/-- Nothing, or the letter with a sign or none and digits; its number. -/
inductive Exponent : List Char → Int → Prop
  | absent : Exponent [] 0
  | plain {e : Char} {ds : List Char} : e ∈ ['e', 'E'] → Digits ds → ds ≠ [] → Exponent (e :: ds) (ofDigits ds)
  | plus {e : Char} {ds : List Char} : e ∈ ['e', 'E'] → Digits ds → ds ≠ [] → Exponent (e :: '+' :: ds) (ofDigits ds)
  | minus {e : Char} {ds : List Char} : e ∈ ['e', 'E'] → Digits ds → ds ≠ [] →
      Exponent (e :: '-' :: ds) (-(ofDigits ds : Int))

/-- The text is a decimal. -/
inductive Spells : List Char → Decimal → Prop
  | intro {ms xs whole fraction : List Char} {exponent : Int} :
      Mantissa ms whole fraction → Exponent xs exponent → Spells (ms ++ xs) ⟨whole, fraction, exponent⟩

/-- The digits up to thirty-six, in small letters. -/
def smallDigits : List Char := "0123456789abcdefghijklmnopqrstuvwxyz".toList

/-- The digits up to thirty-six, in capital letters. -/
def capitalDigits : List Char := "0123456789ABCDEFGHIJKLMNOPQRSTUVWXYZ".toList

/-- The character is the digit of a value in a radix. -/
def Digit (radix : Nat) (c : Char) (d : Nat) : Prop :=
  d < radix ∧ (smallDigits[d]? = some c ∨ capitalDigits[d]? = some c)

/-- The text is a run of digits in a radix with these values. -/
abbrev Run (radix : Nat) : List Char → List Nat → Prop := List.Forall₂ (Digit radix)

/-- Of the texts of a kind, the longest that another one begins with. -/
structure LongestPrefix (kind : List Char → Prop) (t text : List Char) : Prop where
  front : t <+: text
  fits : kind t
  longest : ∀ {u}, kind u → u <+: text → u.length ≤ t.length

/-! ## Digits -/

variable {cs ds fs ms xs rest : List Char} {d : Char}

theorem isDigit_iff {c : Char} : isDigit c = true ↔ 48 ≤ c.toNat ∧ c.toNat ≤ 57 := by
  simp only [isDigit, Bool.and_eq_true, decide_eq_true_eq, Char.le_def, UInt32.le_iff_toNat_le]
  rfl

theorem isDigitByte_iff {b : UInt8} : isDigitByte b = true ↔ 48 ≤ b.toNat ∧ b.toNat ≤ 57 := by
  simp only [isDigitByte, Bool.and_eq_true, decide_eq_true_eq, UInt8.le_iff_toNat_le]
  rfl

theorem Digits.ascii (h : Digits ds) : ∀ d ∈ ds, d.toNat < 128 := fun d hd => by
  have := isDigit_iff.1 (h d hd)
  omega

theorem digits_takeWhile (cs : List Char) : Digits (cs.takeWhile isDigit) := fun _ => List.mem_takeWhile_imp

/-- Digits at the start belong to the run of digits there. -/
theorem Digits.prefix_takeWhile (h : Digits ds) (hp : ds <+: cs) : ds <+: cs.takeWhile isDigit := by
  obtain ⟨rest, rfl⟩ := hp
  rw [List.takeWhile_append_of_pos h]
  exact List.prefix_append _ _

/-- A run of digits ends before what is no digit. -/
theorem Digits.takeWhile_append (h : Digits ds) (hd : isDigit d = false) :
    (ds ++ d :: rest).takeWhile isDigit = ds := by
  rw [List.takeWhile_append_of_pos h, List.takeWhile_cons, hd]
  simp

theorem Digits.dropWhile_append (h : Digits ds) (hd : isDigit d = false) :
    (ds ++ d :: rest).dropWhile isDigit = d :: rest := by
  rw [List.dropWhile_append_of_pos h, List.dropWhile_cons, hd]
  simp

/-! ## The walk over the bytes -/

theorem pastDigits_bytes (i : Nat) (cs : List Char) :
    pastDigits i (Text.bytes cs) = i + (cs.takeWhile isDigit).length := by
  induction cs generalizing i with
  | nil => rfl
  | cons c cs ih =>
    obtain ⟨b, bs, hencode, hb⟩ := Text.exists_encode c
    rw [Text.bytes_cons, hencode, List.cons_append, pastDigits, List.takeWhile_cons]
    cases hc : isDigit c with
    | true =>
      obtain ⟨h48, h57⟩ := isDigit_iff.1 hc
      obtain ⟨-, heq, rfl⟩ | ⟨h128, -⟩ := hb
      · rw [if_pos (isDigitByte_iff.2 (by omega)), List.nil_append, ih]
        simp only [if_true, List.length_cons]
        omega
      · omega
    | false =>
      have hn : ¬ (48 ≤ c.toNat ∧ c.toNat ≤ 57) := fun h => by simp [isDigit_iff.2 h] at hc
      have hb : isDigitByte b = false := by
        rw [← Bool.not_eq_true, isDigitByte_iff]
        omega
      rw [hb]
      rfl

/-- Where a part of the text ends, the digits behind it are walked over. -/
theorem digitsFrom_bytes (ms rest : List Char) :
    digitsFrom (Text.bytes (ms ++ rest)) (Text.bytes ms).length =
      (Text.bytes ms).length + (rest.takeWhile isDigit).length := by
  rw [digitsFrom, Text.bytes_append, List.drop_left, pastDigits_bytes]

/-- Where a part of the text ends, the byte there is that of the character there. -/
theorem isAt_bytes (ms rest : List Char) (hd : d.toNat < 128) :
    isAt (Text.bytes (ms ++ rest)) (Text.bytes ms).length d = true ↔ rest.head? = some d := by
  rw [isAt, Text.bytes_append, List.getElem?_append_right (Nat.le_refl _), Nat.sub_self, ← List.head?_eq_getElem?,
    beq_iff_eq, Text.head?_bytes_iff hd]

/-! ## Digits and a point -/

variable {whole fraction body : List Char}

theorem Mantissa.ne_nil (h : Mantissa ms whole fraction) : ms ≠ [] := by
  cases h with
  | whole _ hne => exact hne
  | pointed => simp

theorem Mantissa.chars (h : Mantissa ms whole fraction) : ∀ c ∈ ms, isDigit c = true ∨ c = '.' := by
  cases h with
  | whole hds => exact fun c hc => .inl (hds c hc)
  | pointed hds hfs =>
    intro c hc
    rcases List.mem_append.1 hc with hc | hc
    · exact .inl (hds c hc)
    · rcases List.mem_cons.1 hc with rfl | hc
      · exact .inr rfl
      · exact .inl (hfs c hc)

theorem Mantissa.ascii (h : Mantissa ms whole fraction) : ∀ c ∈ ms, c.toNat < 128 := by
  intro c hc
  rcases h.chars c hc with hd | rfl
  · have := isDigit_iff.1 hd
    omega
  · decide

/-- Digits with or without a point lie within the digits that a text begins with, or go on from a point behind these
into the digits there. -/
theorem Mantissa.within (h : Mantissa ms whole fraction) (hp : ms <+: body) :
    ms <+: body.takeWhile isDigit ∨
      ∃ after, body.dropWhile isDigit = '.' :: after ∧
        (body.takeWhile isDigit ≠ [] ∨ after.takeWhile isDigit ≠ []) ∧
        ms <+: body.takeWhile isDigit ++ '.' :: after.takeWhile isDigit := by
  cases h with
  | whole hds => exact .inl (hds.prefix_takeWhile hp)
  | pointed hds hfs hsome =>
    obtain ⟨rest, rfl⟩ := hp
    rw [List.append_assoc, List.cons_append, hds.takeWhile_append (by decide), hds.dropWhile_append (by decide)]
    have hfraction := hfs.prefix_takeWhile (List.prefix_append fraction rest)
    refine .inr ⟨fraction ++ rest, rfl, hsome.imp_right (mt fun hnone => ?_), ?_⟩
    · rw [hnone] at hfraction
      exact List.prefix_nil.1 hfraction
    · exact (List.prefix_append_right_inj _).2 (List.cons_prefix_cons.2 ⟨rfl, hfraction⟩)

/-- At a point the walk goes on over the digits behind it, if there is a digit on either side. -/
theorem fractionEnd_point (hds : Digits ds) (after : List Char) :
    fractionEnd (Text.bytes (ds ++ '.' :: after)) (Text.bytes ds).length =
      if ds ≠ [] ∨ after.takeWhile isDigit ≠ [] then (Text.bytes (ds ++ '.' :: after.takeWhile isDigit)).length
      else (Text.bytes ds).length := by
  have hdot : '.'.toNat < 128 := by decide
  have hstop : digitsFrom (Text.bytes (ds ++ '.' :: after)) ((Text.bytes ds).length + 1) =
      (Text.bytes ds).length + 1 + (after.takeWhile isDigit).length := by
    have := digitsFrom_bytes (ds ++ ['.']) after
    rwa [List.append_assoc, List.singleton_append, Text.length_bytes_insert hdot] at this
  unfold fractionEnd
  rw [if_pos ((isAt_bytes ds _ hdot).2 rfl), hstop, Text.length_bytes_insert hdot, Text.length_bytes_ascii hds.ascii,
    Text.length_bytes_ascii (digits_takeWhile after).ascii]
  by_cases hsome : ds ≠ [] ∨ after.takeWhile isDigit ≠ []
  · have hpositive : 0 < (after.takeWhile isDigit).length ∨ 0 < ds.length := by
      simpa [List.length_pos_iff] using hsome.symm
    rw [if_pos hsome, if_pos (by simp; omega)]
  · obtain ⟨rfl, hnone⟩ : ds = [] ∧ after.takeWhile isDigit = [] := by simpa [not_or] using hsome
    simp [hnone]

/-- **The walk ends behind the longest digits with or without a point**, or at once if there are none. -/
theorem mantissa_or_none (body : List Char) :
    (∃ ms rest whole fraction, body = ms ++ rest ∧ Mantissa ms whole fraction ∧
      fractionEnd (Text.bytes body) (digitsFrom (Text.bytes body) 0) = (Text.bytes ms).length ∧
      ∀ {ms' whole' fraction'}, Mantissa ms' whole' fraction' → ms' <+: body → ms' <+: ms) ∨
    (fractionEnd (Text.bytes body) (digitsFrom (Text.bytes body) 0) = 0 ∧
      ∀ {ms' whole' fraction'}, Mantissa ms' whole' fraction' → ¬ ms' <+: body) := by
  have hbody : body.takeWhile isDigit ++ body.dropWhile isDigit = body := List.takeWhile_append_dropWhile
  have hds := digits_takeWhile body
  have hstop : digitsFrom (Text.bytes body) 0 = (Text.bytes (body.takeWhile isDigit)).length := by
    rw [Text.length_bytes_ascii hds.ascii]
    simpa using digitsFrom_bytes [] body
  rw [hstop]
  by_cases hpoint : (body.dropWhile isDigit).head? = some '.'
  · obtain ⟨after, hafter⟩ := List.head?_eq_some_iff.1 hpoint
    rw [hafter] at hbody
    have hend := fractionEnd_point hds after
    rw [hbody] at hend
    by_cases hsome : body.takeWhile isDigit ≠ [] ∨ after.takeWhile isDigit ≠ []
    · rw [hend, if_pos hsome]
      refine .inl ⟨_, after.dropWhile isDigit, _, _, ?_, .pointed hds (digits_takeWhile after) hsome, rfl, ?_⟩
      · rw [List.append_assoc, List.cons_append, List.takeWhile_append_dropWhile, hbody]
      · intro ms' whole' fraction' h' hp
        obtain hp | ⟨after', hafter', -, hp⟩ := h'.within hp
        · exact hp.trans (List.prefix_append _ _)
        · rw [hafter] at hafter'
          cases hafter'
          exact hp
    · have hnone : body.takeWhile isDigit = [] := not_not.1 (not_or.1 hsome).1
      refine .inr ⟨by rw [hend, if_neg hsome, hnone]; rfl, fun h' hp => ?_⟩
      obtain hp | ⟨after', hafter', hsome', -⟩ := h'.within hp
      · rw [hnone] at hp
        exact h'.ne_nil (List.prefix_nil.1 hp)
      · rw [hafter] at hafter'
        cases hafter'
        exact hsome hsome'
  · have hend : fractionEnd (Text.bytes body) (Text.bytes (body.takeWhile isDigit)).length =
        (Text.bytes (body.takeWhile isDigit)).length := by
      have hat := isAt_bytes (body.takeWhile isDigit) (body.dropWhile isDigit) (show '.'.toNat < 128 by decide)
      rw [hbody] at hat
      exact if_neg (mt hat.1 hpoint)
    have hwithin : ∀ {ms' whole' fraction'}, Mantissa ms' whole' fraction' → ms' <+: body →
        ms' <+: body.takeWhile isDigit := by
      intro ms' whole' fraction' h' hp
      obtain hp | ⟨after', hafter', -⟩ := h'.within hp
      · exact hp
      · exact absurd (by rw [hafter']; rfl) hpoint
    rw [hend]
    by_cases hnone : body.takeWhile isDigit = []
    · refine .inr ⟨by rw [hnone]; rfl, fun h' hp => h'.ne_nil (List.prefix_nil.1 ?_)⟩
      rw [← hnone]
      exact hwithin h' hp
    · exact .inl ⟨_, body.dropWhile isDigit, _, _, hbody.symm, .whole hds hnone, rfl, hwithin⟩

/-! ## The exponent -/

/-- The sign that a text begins with. -/
def frontSign : List Char → List Char
  | '+' :: _ => ['+']
  | '-' :: _ => ['-']
  | _ => []

theorem frontSign_prefix (cs : List Char) : frontSign cs <+: cs := by
  unfold frontSign
  split
  · exact ⟨_, rfl⟩
  · exact ⟨_, rfl⟩
  · exact List.nil_prefix

theorem Digits.frontSign_append (h : Digits ds) (hne : ds ≠ []) (rest : List Char) : frontSign (ds ++ rest) = [] := by
  obtain ⟨d, ds, rfl⟩ := List.exists_cons_of_ne_nil hne
  have hd : isDigit d = true := h d List.mem_cons_self
  unfold frontSign
  split
  · rename_i heq
    cases (List.cons.inj heq).1
    exact absurd hd (by decide)
  · rename_i heq
    cases (List.cons.inj heq).1
    exact absurd hd (by decide)
  · rfl

theorem length_frontSign (cs : List Char) :
    (frontSign cs).length = if cs.head? = some '+' ∨ cs.head? = some '-' then 1 else 0 := by
  unfold frontSign
  split
  · rfl
  · rfl
  · rename_i hplus hminus
    rw [if_neg]
    · rfl
    · rintro (h | h)
      · obtain ⟨rest, rfl⟩ := List.head?_eq_some_iff.1 h
        exact hplus _ rfl
      · obtain ⟨rest, rfl⟩ := List.head?_eq_some_iff.1 h
        exact hminus _ rfl

theorem ascii_frontSign (cs : List Char) : ∀ c ∈ frontSign cs, c.toNat < 128 := by
  unfold frontSign
  split
  · simp only [List.mem_singleton, forall_eq]
    decide
  · simp only [List.mem_singleton, forall_eq]
    decide
  · nofun

/-- Digits behind the sign of a text make an exponent. -/
theorem exists_exponent_frontSign {e : Char} (he : e ∈ ['e', 'E']) (hds : Digits ds) (hne : ds ≠ []) (cs : List Char) :
    ∃ n, Exponent (e :: (frontSign cs ++ ds)) n := by
  unfold frontSign
  split
  · exact ⟨_, .plus he hds hne⟩
  · exact ⟨_, .minus he hds hne⟩
  · exact ⟨_, .plain he hds hne⟩

/-- An exponent is nothing, or a letter with the sign of the text behind it and digits. -/
theorem Exponent.within {n : Int} (h : Exponent xs n) (hp : xs <+: rest) :
    xs = [] ∨ ∃ e after ds, e ∈ ['e', 'E'] ∧ rest = e :: after ∧ xs = e :: (frontSign after ++ ds) ∧
      Digits ds ∧ ds ≠ [] := by
  obtain ⟨more, rfl⟩ := hp
  cases h with
  | absent => exact .inl rfl
  | plain he hds hne =>
    refine .inr ⟨_, _, _, he, rfl, ?_, hds, hne⟩
    show _ = _ :: (frontSign (_ ++ more) ++ _)
    rw [hds.frontSign_append hne, List.nil_append]
  | plus he hds hne => exact .inr ⟨_, _, _, he, rfl, rfl, hds, hne⟩
  | minus he hds hne => exact .inr ⟨_, _, _, he, rfl, rfl, hds, hne⟩

theorem ascii_letter {e : Char} (he : e ∈ ['e', 'E']) : e.toNat < 128 := by
  rcases List.mem_pair.1 he with rfl | rfl <;> decide

/-- Behind the letter of an exponent the walk goes over a sign and over the digits there; without digits it goes back to
where it was before the letter. -/
theorem exponentEnd_letter {e : Char} (he : e ∈ ['e', 'E']) (ms : List Char) {after tail : List Char}
    (htail : frontSign after ++ tail = after) :
    exponentEnd (Text.bytes (ms ++ e :: after)) (Text.bytes ms).length =
      if tail.takeWhile isDigit = [] then (Text.bytes ms).length
      else (Text.bytes (ms ++ e :: (frontSign after ++ tail.takeWhile isDigit))).length := by
  have hletter : (isAt (Text.bytes (ms ++ e :: after)) (Text.bytes ms).length 'e' ||
      isAt (Text.bytes (ms ++ e :: after)) (Text.bytes ms).length 'E') = true := by
    rw [Bool.or_eq_true, isAt_bytes _ _ (by decide), isAt_bytes _ _ (by decide)]
    simpa using he
  have hlength := Text.length_bytes_insert (ascii_letter he) ms
  have hsign : ∀ {d : Char}, d.toNat < 128 →
      (isAt (Text.bytes (ms ++ e :: after)) ((Text.bytes ms).length + 1) d = true ↔ after.head? = some d) := by
    intro d hd
    have hafter := isAt_bytes (ms ++ [e]) after hd
    rwa [List.append_assoc, List.singleton_append, hlength] at hafter
  have hstart : (if isAt (Text.bytes (ms ++ e :: after)) ((Text.bytes ms).length + 1) '+' ||
      isAt (Text.bytes (ms ++ e :: after)) ((Text.bytes ms).length + 1) '-' then (Text.bytes ms).length + 2
      else (Text.bytes ms).length + 1) = (Text.bytes (ms ++ e :: frontSign after)).length := by
    rw [hlength, Text.length_bytes_ascii (ascii_frontSign after), length_frontSign]
    simp only [Bool.or_eq_true, hsign (show '+'.toNat < 128 by decide), hsign (show '-'.toNat < 128 by decide)]
    split <;> rfl
  have hstop : digitsFrom (Text.bytes (ms ++ e :: after)) (Text.bytes (ms ++ e :: frontSign after)).length =
      (Text.bytes (ms ++ e :: frontSign after)).length + (tail.takeWhile isDigit).length := by
    have := digitsFrom_bytes (ms ++ e :: frontSign after) tail
    rwa [List.append_assoc, List.cons_append, htail] at this
  unfold exponentEnd
  rw [if_pos hletter]
  dsimp only
  rw [hstart, hstop]
  by_cases hnone : tail.takeWhile isDigit = []
  · rw [if_pos hnone, if_neg (by simp [hnone])]
  · rw [if_neg hnone, if_pos (by simpa [List.length_pos_iff] using hnone), hlength, hlength, Text.bytes_append,
      List.length_append, Text.length_bytes_ascii (digits_takeWhile tail).ascii, Nat.add_assoc]

/-- **The walk goes on behind the longest exponent.** -/
theorem exists_exponent (ms rest : List Char) :
    ∃ xs more n, rest = xs ++ more ∧ Exponent xs n ∧
      exponentEnd (Text.bytes (ms ++ rest)) (Text.bytes ms).length = (Text.bytes (ms ++ xs)).length ∧
      ∀ {xs' n'}, Exponent xs' n' → xs' <+: rest → xs' <+: xs := by
  by_cases hletter : rest.head? = some 'e' ∨ rest.head? = some 'E'
  · obtain ⟨e, after, he, rfl⟩ : ∃ e after, e ∈ ['e', 'E'] ∧ rest = e :: after := by
      obtain h | h := hletter
      all_goals
        obtain ⟨after, rfl⟩ := List.head?_eq_some_iff.1 h
        exact ⟨_, after, by simp, rfl⟩
    obtain ⟨tail, htail⟩ := frontSign_prefix after
    have hwithin : ∀ {xs' n'}, Exponent xs' n' → xs' <+: e :: after → xs' = [] ∨
        tail.takeWhile isDigit ≠ [] ∧ xs' <+: e :: (frontSign after ++ tail.takeWhile isDigit) := by
      intro xs' n' h' hp
      obtain rfl | ⟨_, _, ds, -, heq, rfl, hds, hne⟩ := h'.within hp
      · exact .inl rfl
      · cases heq
        have hall : frontSign after ++ ds <+: frontSign after ++ tail := by
          rw [htail]
          exact (List.cons_prefix_cons.1 hp).2
        have hdigits := hds.prefix_takeWhile ((List.prefix_append_right_inj _).1 hall)
        refine .inr ⟨fun hnone => hne ?_, List.cons_prefix_cons.2 ⟨rfl, (List.prefix_append_right_inj _).2 hdigits⟩⟩
        rw [hnone] at hdigits
        exact List.prefix_nil.1 hdigits
    rw [exponentEnd_letter he ms htail]
    by_cases hnone : tail.takeWhile isDigit = []
    · refine ⟨[], _, 0, rfl, .absent, by rw [if_pos hnone, List.append_nil], fun h' hp => ?_⟩
      obtain rfl | ⟨hsome, -⟩ := hwithin h' hp
      · exact List.prefix_rfl
      · exact absurd hnone hsome
    · obtain ⟨n, hexponent⟩ := exists_exponent_frontSign he (digits_takeWhile tail) hnone after
      refine ⟨_, tail.dropWhile isDigit, n, ?_, hexponent, if_neg hnone, fun h' hp => ?_⟩
      · rw [List.cons_append, List.append_assoc, List.takeWhile_append_dropWhile, htail]
      · obtain rfl | ⟨-, hp⟩ := hwithin h' hp
        · exact List.nil_prefix
        · exact hp
  · have hstay : exponentEnd (Text.bytes (ms ++ rest)) (Text.bytes ms).length = (Text.bytes ms).length := by
      unfold exponentEnd
      rw [if_neg]
      rwa [Bool.or_eq_true, isAt_bytes _ _ (by decide), isAt_bytes _ _ (by decide)]
    refine ⟨[], rest, 0, rfl, .absent, by rw [List.append_nil, hstay], fun h' hp => ?_⟩
    obtain rfl | ⟨e, after, ds, he, rfl, -⟩ := h'.within hp
    · exact List.prefix_rfl
    · refine absurd ?_ hletter
      simpa using he

/-! ## Decimals -/

/-- An exponent begins with what neither digits nor a point do. -/
theorem Exponent.front {n : Int} (h : Exponent xs n) : xs = [] ∨ ∃ e more, e ∈ ['e', 'E'] ∧ xs = e :: more := by
  cases h with
  | absent => exact .inl rfl
  | plain he | plus he | minus he => exact .inr ⟨_, _, he, rfl⟩

theorem not_letter {c : Char} (h : isDigit c = true ∨ c = '.') : c ∉ ['e', 'E'] := by
  rintro he
  rcases List.mem_pair.1 he with rfl | rfl <;> revert h <;> decide

/-- **The walk ends behind the longest decimal that a text begins with**, and finds none only if there is none. -/
theorem decimal_or_none (body : List Char) :
    (∃ t d, LongestPrefix (fun u => ∃ d, Spells u d) t body ∧ Spells t d ∧
      decimalEnd? (Text.bytes body) = some (Text.bytes t).length) ∨
    (decimalEnd? (Text.bytes body) = none ∧ ∀ {u d}, Spells u d → ¬ u <+: body) := by
  obtain ⟨ms, rest, whole, fraction, rfl, hms, hend, hmost⟩ | ⟨hend, hnone⟩ := mantissa_or_none body
  · obtain ⟨xs, more, n, rfl, hxs, hstop, hfurthest⟩ := exists_exponent ms rest
    refine .inl ⟨ms ++ xs, _, ⟨⟨more, List.append_assoc _ _ _⟩, ⟨_, .intro hms hxs⟩, ?_⟩, .intro hms hxs, ?_⟩
    · rintro u ⟨d, hms', hxs'⟩ hp
      rename_i ms' xs' _ _ _
      obtain ⟨beyond, rfl⟩ := hmost hms' ((List.prefix_append _ _).trans hp)
      cases beyond with
      | nil =>
        rw [List.append_nil, List.prefix_append_right_inj] at hp
        have := (hfurthest hxs' hp).length_le
        simpa using this
      | cons c beyond =>
        -- what goes on with a digit or the point does not go on with an exponent
        obtain rfl | ⟨e, after, he, rfl⟩ := hxs'.front
        · simp only [List.append_nil, List.length_append]
          omega
        · rw [List.append_assoc, List.prefix_append_right_inj, List.cons_append, List.cons_prefix_cons] at hp
          obtain ⟨rfl, -⟩ := hp
          exact absurd he (not_letter (hms.chars e (by simp)))
    · have hpositive : (Text.bytes ms).length ≠ 0 := by
        rw [Text.length_bytes_ascii hms.ascii]
        exact fun h => hms.ne_nil (List.eq_nil_of_length_eq_zero h)
      rw [decimalEnd?, hend, hstop]
      exact if_neg hpositive
  · refine .inr ⟨by rw [decimalEnd?, hend]; rfl, ?_⟩
    rintro u d ⟨hms, -⟩ hp
    exact hnone hms ((List.prefix_append _ _).trans hp)

/-! ## Reading a decimal -/

theorem readDigits?_eq (hds : Digits ds) (hne : ds ≠ []) : readDigits? ds = some (ofDigits ds) := by
  have hall : ds.all isDigit = true := List.all_eq_true.2 hds
  cases ds with
  | nil => exact absurd rfl hne
  | cons d ds => simp [readDigits?, hall]

theorem readExponent?_eq {n : Int} (h : Exponent xs n) : readExponent? xs = some n := by
  cases h with
  | absent => rfl
  | plain he hds hne =>
    unfold readExponent?
    simp only [if_pos (List.mem_pair.1 he)]
    split
    · exact absurd (hds '-' List.mem_cons_self) (by decide)
    · exact absurd (hds '+' List.mem_cons_self) (by decide)
    · rw [readDigits?_eq hds hne]
      rfl
  | plus he hds hne | minus he hds hne =>
    simp only [readExponent?, if_pos (List.mem_pair.1 he), readDigits?_eq hds hne]
    rfl

/-- No digit of what stands before goes on into an exponent, and no point does. -/
theorem Exponent.takeWhile_append {n : Int} (h : Exponent xs n) (hds : Digits ds) :
    (ds ++ xs).takeWhile isDigit = ds ∧ (ds ++ xs).dropWhile isDigit = xs := by
  obtain rfl | ⟨e, more, he, rfl⟩ := h.front
  · rw [List.append_nil]
    exact ⟨List.takeWhile_eq_self_iff.2 hds, List.dropWhile_eq_nil_iff.2 hds⟩
  · have hletter : isDigit e = false := by
      rw [← Bool.not_eq_true]
      exact fun hd => not_letter (.inl hd) he
    exact ⟨hds.takeWhile_append hletter, hds.dropWhile_append hletter⟩

/-- **What spells a decimal is read as this decimal.** -/
theorem readDecimal?_eq {t : List Char} {d : Decimal} (h : Spells t d) : readDecimal? t = some d := by
  obtain @⟨ms, xs, whole, fraction, n, hms, hxs⟩ := h
  unfold readDecimal?
  cases hms with
  | whole hds hne =>
    obtain ⟨htake, hdrop⟩ := hxs.takeWhile_append hds
    have hpoint : ∀ after, xs ≠ '.' :: after := by
      rintro after rfl
      obtain h | ⟨e, more, he, h⟩ := hxs.front
      · cases h
      · cases h
        exact absurd he (by decide)
    rw [htake, hdrop]
    split
    rename_i heq
    split at heq
    · exact absurd rfl (hpoint _)
    · obtain ⟨rfl, rfl⟩ := Prod.mk.inj heq
      rw [readExponent?_eq hxs, if_neg (by simpa using hne)]
      rfl
  | pointed hds hfs hsome =>
    obtain ⟨htake, hdrop⟩ := hxs.takeWhile_append hfs
    rw [List.append_assoc, List.cons_append, hds.takeWhile_append (by decide), hds.dropWhile_append (by decide)]
    simp only [htake, hdrop, readExponent?_eq hxs]
    rw [if_neg (by simpa [Classical.or_iff_not_imp_left] using hsome)]
    rfl

/-! ## Runs of digits -/

section Run

variable {radix d : Nat} {c : Char}

theorem smallDigits_get : ∀ d < 36, smallDigits[d]? = some (Char.ofNat (if d < 10 then d + 48 else d + 87)) := by
  decide

theorem capitalDigits_get : ∀ d < 36, capitalDigits[d]? = some (Char.ofNat (if d < 10 then d + 48 else d + 55)) := by
  decide

theorem ofNat_eq_iff {n : Nat} (hn : n < 128) : Char.ofNat n = c ↔ n = c.toNat := by
  have hvalid : n.isValidChar := .inl (by omega)
  rw [← Char.toNat_inj, Char.toNat_ofNat, if_pos hvalid]

theorem digit_iff (hr : radix ≤ 36) :
    Digit radix c d ↔ d < radix ∧ (if d < 10 then d + 48 = c.toNat else d + 87 = c.toNat ∨ d + 55 = c.toNat) := by
  refine and_congr_right fun hd => ?_
  rw [smallDigits_get d (by omega), capitalDigits_get d (by omega), Option.some_inj, Option.some_inj]
  split
  · rw [ofNat_eq_iff (by omega), or_self]
  · rw [ofNat_eq_iff (by omega), ofNat_eq_iff (by omega)]

/-- The value of a digit is what its place among the digits says. -/
theorem digitValue?_eq_some_iff (hr : radix ≤ 36) : digitValue? radix c = some d ↔ Digit radix c d := by
  have hsmall : (decide ('a' ≤ c) && decide (c ≤ 'z')) = true ↔ 97 ≤ c.toNat ∧ c.toNat ≤ 122 := by
    simp only [Bool.and_eq_true, decide_eq_true_eq, Char.le_def, UInt32.le_iff_toNat_le]
    rfl
  have hcapital : (decide ('A' ≤ c) && decide (c ≤ 'Z')) = true ↔ 65 ≤ c.toNat ∧ c.toNat ≤ 90 := by
    simp only [Bool.and_eq_true, decide_eq_true_eq, Char.le_def, UInt32.le_iff_toNat_le]
    rfl
  rw [digit_iff hr, digitValue?]
  simp only [isDigit_iff, hsmall, hcapital, Option.filter_eq_some_iff, decide_eq_true_eq]
  have h0 : '0'.toNat = 48 := rfl
  have ha : 'a'.toNat = 97 := rfl
  have hA : 'A'.toNat = 65 := rfl
  rw [h0, ha, hA]
  split_ifs <;> simp only [Option.some_inj, false_and, false_iff] <;> omega

/-- **The digits that a text begins with are taken, all of them and no other.** -/
theorem takeDigits_run (hr : radix ≤ 36) (x : Float) (seen : Bool) (cs : List Char) :
    ∃ run ds, LongestPrefix (fun u => ∃ ds, Run radix u ds) run cs ∧ Run radix run ds ∧
      takeDigits radix x seen cs =
        (ds.foldl (fun x d => x * Float.ofNat radix + Float.ofNat d) x, seen || !run.isEmpty) := by
  induction cs generalizing x seen with
  | nil =>
    refine ⟨[], [], ⟨List.prefix_rfl, ⟨[], .nil⟩, ?_⟩, .nil, by simp [takeDigits]⟩
    intro u _ hp
    exact hp.length_le
  | cons c cs ih =>
    cases hc : digitValue? radix c with
    | none =>
      refine ⟨[], [], ⟨List.nil_prefix, ⟨[], .nil⟩, ?_⟩, .nil, by simp [takeDigits, hc]⟩
      rintro u ⟨ds, hu⟩ hp
      cases hu with
      | nil => exact Nat.le_refl 0
      | cons hd =>
        obtain ⟨rfl, -⟩ := List.cons_prefix_cons.1 hp
        rw [(digitValue?_eq_some_iff hr).2 hd] at hc
        cases hc
    | some d =>
      obtain ⟨run, ds, ⟨hfront, -, hlongest⟩, hrun, htake⟩ := ih (x * Float.ofNat radix + Float.ofNat d) true
      have hd := (digitValue?_eq_some_iff hr).1 hc
      refine ⟨c :: run, d :: ds, ⟨List.cons_prefix_cons.2 ⟨rfl, hfront⟩, ⟨_, .cons hd hrun⟩, ?_⟩, .cons hd hrun, ?_⟩
      · rintro u ⟨ds, hu⟩ hp
        cases hu with
        | nil => exact Nat.zero_le _
        | cons hd hu =>
          have := hlongest ⟨_, hu⟩ (List.cons_prefix_cons.1 hp).2
          simpa using this
      · simp only [takeDigits, hc, htake]
        simp

/-- However many digits are taken, their value is a number. -/
theorem hasSign_foldl (h2 : 2 ≤ radix) (hr : radix ≤ 36) {x : Float} (hx : HasSign .positive x) (ds : List Nat) :
    HasSign .positive (ds.foldl (fun x d => x * Float.ofNat radix + Float.ofNat d) x) := by
  induction ds generalizing x with
  | nil => exact hx
  | cons d ds ih => exact ih ((hx.mul_regular (regular_ofNat (by omega) (by omega))).add (hasSign_ofNat d))

end Run

/-! ## Numbers -/

theorem isNaN_nan : nan.isNaN = true := rfl

theorem regular_one : Regular .positive 1.0 := ⟨2 ^ 52, -52, by decide, rfl⟩
theorem regular_minusOne : Regular .negative (-1.0) := ⟨2 ^ 52, -52, by decide, rfl⟩

theorem exists_regular_sign (cs : List Char) : ∃ s, Regular s (splitSign cs).1 := by
  unfold splitSign
  split
  · exact ⟨.negative, regular_minusOne⟩
  · exact ⟨.positive, regular_one⟩
  · exact ⟨.positive, regular_one⟩

section Float

variable {sign : Float} (h : splitSign (Text.trimStart cs) = (sign, body)) (hword : ¬ infinityWord <+: body)

include h hword

theorem leadingFloat_of_none (hend : decimalEnd? (Text.bytes body) = none) : leadingFloat cs = nan := by
  simp [leadingFloat, h, hword, hend]

theorem leadingFloat_of_decimal {t : List Char} {stop : Nat} {d : Decimal}
    (hend : decimalEnd? (Text.bytes body) = some stop) (hslice : Text.sliceTo? body stop = some t)
    (hread : readDecimal? t = some d) : leadingFloat cs = sign * d.value := by
  simp [leadingFloat, h, hword, hend, hslice, hread]

end Float

/-- **A number at the start of a text is the longest one there.** Behind blanks and a sign, if the word for an infinite
number does not stand there: the walk over the bytes ends where the longest decimal does, never inside a character,
and what is cut off there is read as that decimal; the result is no number exactly if the text begins with no
decimal. A whole number in a radix is that of the longest run of digits there, and no number exactly if this run is
empty. -/
theorem leading_longest (cs : List Char) {sign : Float} {body : List Char}
    (h : splitSign (Text.trimStart cs) = (sign, body)) :
    (¬ infinityWord <+: body →
      ((∃ t d, LongestPrefix (fun u => ∃ d, Spells u d) t body ∧ Spells t d ∧
          decimalEnd? (Text.bytes body) = some (Text.bytes t).length ∧
          Text.sliceTo? body (Text.bytes t).length = some t ∧ readDecimal? t = some d ∧
          leadingFloat cs = sign * d.value) ∨
        decimalEnd? (Text.bytes body) = none ∧ leadingFloat cs = nan) ∧
      ((leadingFloat cs).isNaN = true ↔ ∀ {u d}, Spells u d → ¬ u <+: body)) ∧
    ∀ radix, 2 ≤ radix → radix ≤ 36 →
      ∃ run ds, LongestPrefix (fun u => ∃ ds, Run radix u ds) run body ∧ Run radix run ds ∧
        (leadingInteger radix cs = if run = [] then nan
          else sign * ds.foldl (fun x d => x * Float.ofNat radix + Float.ofNat d) 0.0) ∧
        ((leadingInteger radix cs).isNaN = true ↔ run = []) := by
  have hsign : ∃ s, Regular s sign := by
    have := exists_regular_sign (Text.trimStart cs)
    rwa [h] at this
  obtain ⟨s, hs⟩ := hsign
  refine ⟨fun hword => ?_, fun radix h2 h36 => ?_⟩
  · obtain ⟨t, d, ⟨hfront, hkind, hlongest⟩, hd, hend⟩ | ⟨hend, hnone⟩ := decimal_or_none body
    · obtain ⟨more, rfl⟩ := hfront
      have hslice := Text.sliceTo?_append t more
      have hread := readDecimal?_eq hd
      have hvalue := leadingFloat_of_decimal h hword hend hslice hread
      refine ⟨.inl ⟨t, d, ⟨List.prefix_append _ _, hkind, hlongest⟩, hd, hend, hslice, hread, hvalue⟩, ?_⟩
      rw [hvalue, (hs.mul (hasSign_value d)).isNaN]
      exact ⟨nofun, fun hnone => absurd (List.prefix_append _ _) (hnone hd)⟩
    · have hnan := leadingFloat_of_none h hword hend
      refine ⟨.inr ⟨hend, hnan⟩, ?_⟩
      rw [hnan]
      exact ⟨fun _ => hnone, fun _ => isNaN_nan⟩
  · obtain ⟨run, ds, hlongest, hrun, htake⟩ := takeDigits_run h36 0.0 false body
    have hint : leadingInteger radix cs = if run = [] then nan
        else sign * ds.foldl (fun x d => x * Float.ofNat radix + Float.ofNat d) 0.0 := by
      simp only [leadingInteger, h, htake]
      cases run <;> rfl
    refine ⟨run, ds, hlongest, hrun, hint, ?_⟩
    rw [hint]
    split
    · rename_i hempty
      exact ⟨fun _ => hempty, fun _ => isNaN_nan⟩
    · rename_i hsome
      rw [(hs.mul (hasSign_foldl h2 h36 hasSign_zero ds)).isNaN]
      exact ⟨nofun, fun hempty => absurd hempty hsome⟩

/-- A point without digits behind it belongs to the number, an exponent without digits does not. -/
theorem leading_longest_fivePoint :
    splitSign (Text.trimStart [' ', '-', '5', '.', 'e', '+', 'é']) = (-1.0, ['5', '.', 'e', '+', 'é']) ∧
    decimalEnd? (Text.bytes ['5', '.', 'e', '+', 'é']) = some 2 ∧
    (leadingFloat [' ', '-', '5', '.', 'e', '+', 'é']).isNaN ≠ true ∧
    (leadingInteger 16 [' ', '-', '5', '.', 'e', '+', 'é']).isNaN ≠ true := by
  have hfive : Spells ['5', '.'] ⟨['5'], [], 0⟩ :=
    .intro (@Mantissa.pointed ['5'] [] (by simp [Digits, isDigit]) nofun (.inl (by decide))) .absent
  have hdigit : Run 16 ['5'] [5] := .cons ⟨by decide, .inl (by decide)⟩ .nil
  obtain ⟨hfloat, hinteger⟩ := leading_longest [' ', '-', '5', '.', 'e', '+', 'é'] rfl
  refine ⟨rfl, rfl, fun hnan => ?_, fun hnan => ?_⟩
  · exact (hfloat (by decide)).2.1 hnan hfive ⟨['e', '+', 'é'], rfl⟩
  · obtain ⟨run, ds, ⟨-, -, hlongest⟩, -, -, hiff⟩ := hinteger 16 (by decide) (by decide)
    rw [hiff.1 hnan] at hlongest
    exact absurd (hlongest ⟨_, hdigit⟩ ⟨['.', 'e', '+', 'é'], rfl⟩) (by decide)

end StepScript.Number

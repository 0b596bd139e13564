import StepScript.Proofs.Token.Tiling

/-!
# The longest lexeme

The lexical grammar says which characters form a token, and of which kind and value (`Lexeme`): a sign, a word, a number
or a string. It knows nothing of what stands behind them.

* An item that makes a token takes a lexeme of the grammar (`fits_of_scanItem`).
* Where a lexeme stands, whatever follows it, an item takes at least that lexeme; it takes no more if a blank, a comment
  or the end of the text follows, and if it takes no more it makes the token of the grammar (`meets_of_lexeme`).

So every token of a text is the longest lexeme that the rest of the text begins with (`scan_longest`).
-/

namespace StepScript

/-! ## The lexical grammar -/

/-- The signs and their kinds. -/
def signs : List (List Char × TokenKind) :=
  [(['('], .leftParen), ([')'], .rightParen), (['{'], .leftBrace), (['}'], .rightBrace), (['['], .leftBracket),
   ([']'], .rightBracket), ([','], .comma), (['.'], .dot), (['-'], .minus), (['+'], .plus), ([';'], .semicolon),
   (['*'], .star), (['/'], .slash), (['!'], .bang), (['!', '='], .bangEqual), (['='], .equal),
   (['=', '='], .equalEqual), (['<'], .less), (['<', '='], .lessEqual), (['>'], .greater),
   (['>', '='], .greaterEqual)]

/-- The kind that the table of keywords gives a word; all other words are names. -/
inductive Means (word : String) : TokenKind → Prop
  | keyword {kind : TokenKind} : (word, kind) ∈ keywords → Means word kind
  | identifier : (∀ kind, (word, kind) ∉ keywords) → Means word .identifier

/-- The characters form a token of a kind, with a value if it has one. -/
inductive Lexeme : List Char → TokenKind → Option Payload → Prop
  | sign {cs : List Char} {kind : TokenKind} : (cs, kind) ∈ signs → Lexeme cs kind none
  /-- Letters, digits and underscores, with no digit in front. -/
  | word {c : Char} {cs : List Char} {kind : TokenKind} : c.isAlpha = true ∨ c = '_' →
      (∀ d ∈ cs, d.isAlphanum = true ∨ d = '_') → Means (String.ofList (c :: cs)) kind → Lexeme (c :: cs) kind none
  | whole {ds : List Char} : ds ≠ [] → (∀ d ∈ ds, d.isDigit = true) →
      Lexeme ds .number (some (.number (Number.Decimal.value ⟨ds, [], 0⟩)))
  | fraction {ds fs : List Char} : ds ≠ [] → (∀ d ∈ ds, d.isDigit = true) → fs ≠ [] → (∀ d ∈ fs, d.isDigit = true) →
      Lexeme (ds ++ '.' :: fs) .number (some (.number (Number.Decimal.value ⟨ds, fs, 0⟩)))
  /-- Everything between two quotes of the same sort. -/
  | string {quote : Char} {body : List Char} : quote = '"' ∨ quote = '\'' → quote ∉ body →
      Lexeme (quote :: (body ++ [quote])) .string (some (.text (String.ofList body)))

/-- **The token is the longest that the text begins with**, and is what the grammar says of its lexeme and nothing
else. -/
structure Longest (text : List Char) (t : Token) : Prop where
  lexeme : Lexeme t.lexeme.toList t.kind t.payload
  front : t.lexeme.toList <+: text
  longest : ∀ {cs kind payload}, Lexeme cs kind payload → cs <+: text → cs.length ≤ t.lexeme.toList.length
  only : ∀ {kind payload}, Lexeme t.lexeme.toList kind payload → kind = t.kind ∧ payload = t.payload

/-! ## Classes of characters -/

theorem isDigit_eq (c : Char) : Number.isDigit c = c.isDigit := rfl

theorem isWordStart_iff (c : Char) : isWordStart c = true ↔ c.isAlpha = true ∨ c = '_' := by
  have halpha : c.isAlpha = ((('a' ≤ c : Bool) && (c ≤ 'z' : Bool)) || (('A' ≤ c : Bool) && (c ≤ 'Z' : Bool))) := by
    rw [Bool.or_comm, ← Bool.decide_and]
    rfl
  rw [isWordStart, halpha, Bool.or_eq_true, beq_iff_eq]

theorem isWordPart_iff (c : Char) : isWordPart c = true ↔ c.isAlphanum = true ∨ c = '_' := by
  rw [isWordPart, Bool.or_eq_true, isWordStart_iff, isDigit_eq, Char.isAlphanum, Bool.or_eq_true, or_right_comm]

/-- Nothing stands behind, or a blank or a comment. -/
def Breaks (rest : List Char) : Prop := ∀ c ∈ rest.head?, c ∈ [' ', '\t', '\r', '\n', '#']

/-- No character of a class goes over a break. -/
theorem Breaks.takeWhile_eq_nil {rest : List Char} (h : Breaks rest) {p : Char → Bool}
    (hp : [' ', '\t', '\r', '\n', '#'].any p = false) : rest.takeWhile p = [] := by
  cases rest with
  | nil => rfl
  | cons c rest =>
    have hc : p c = false := by simpa using List.any_eq_false.1 hp c (h c rfl)
    rw [List.takeWhile_cons, hc]
    rfl

/-! ## What an item takes -/

/-- What an item does where the lexeme `c :: cs` stands before `rest`. -/
structure Item.Meets (item : Item) (c : Char) (cs rest : List Char) (kind : TokenKind) (payload : Option Payload) :
    Prop where
  unskipped : item.shape ≠ .skipped
  /-- It takes the lexeme at least, -/
  least : cs.length ≤ item.extra
  /-- and no more before a break; -/
  most : Breaks rest → item.extra = cs.length
  /-- if it takes the lexeme and no more, it makes its token. -/
  token : item.extra = cs.length → ∀ span,
    Item.token? item.shape (c :: cs) span = some ⟨kind, String.ofList (c :: cs), payload, span⟩

theorem isDigit_of_isWordStart {c : Char} (h : isWordStart c = true) : Number.isDigit c = false := by
  rw [← Bool.not_eq_true]
  intro hd
  simp only [isWordStart, Number.isDigit, Bool.or_eq_true, Bool.and_eq_true, decide_eq_true_eq, beq_iff_eq,
    Char.le_def, UInt32.le_iff_toNat_le] at h hd
  have h9 : '9'.val.toNat = 57 := rfl
  have hA : 'A'.val.toNat = 65 := rfl
  have ha : 'a'.val.toNat = 97 := rfl
  rcases h with (h | h) | rfl
  · omega
  · omega
  · exact absurd hd (by decide)

theorem scanItem_word {c : Char} (hc : isWordStart c = true) (cs : List Char) :
    scanItem c cs = .ok ⟨.word, (cs.takeWhile isWordPart).length⟩ := by
  unfold scanItem
  split
  case h_23 =>
    rw [if_neg, if_neg (by simp [isDigit_of_isWordStart hc]), if_pos hc]
    intro hq
    rw [Bool.or_eq_true, beq_iff_eq, beq_iff_eq] at hq
    rcases hq with rfl | rfl <;> exact absurd hc (by decide)
  all_goals exact absurd hc (by decide)

theorem scanItem_number {c : Char} (hc : Number.isDigit c = true) (cs : List Char) :
    scanItem c cs = .ok ⟨.number, numberExtra cs⟩ := by
  unfold scanItem
  split
  case h_23 =>
    rw [if_neg, if_pos hc]
    intro hq
    rw [Bool.or_eq_true, beq_iff_eq, beq_iff_eq] at hq
    rcases hq with rfl | rfl <;> exact absurd hc (by decide)
  all_goals exact absurd hc (by decide)

/-- What stands before the first occurrence of a character. -/
theorem takeWhile_ne_append {c : Char} {body : List Char} (h : c ∉ body) (rest : List Char) :
    (body ++ c :: rest).takeWhile (· != c) = body := by
  rw [List.takeWhile_append_of_pos]
  · simp
  · intro d hd
    simpa using fun he : d = c => h (he ▸ hd)

theorem scanItem_string {quote : Char} (hq : quote = '"' ∨ quote = '\'') {body : List Char} (hb : quote ∉ body)
    (rest : List Char) : scanItem quote (body ++ quote :: rest) = .ok ⟨.string, body.length + 1⟩ := by
  have htake := takeWhile_ne_append hb rest
  have hquote : (quote == '"' || quote == '\'') = true := by simpa using hq
  unfold scanItem
  split
  case h_23 => simp only [hquote, htake, List.drop_left, if_true]
  all_goals exact absurd hquote (by decide)

/-! ## Where a lexeme stands -/

section Meets

variable {c : Char} {cs rest : List Char}

/-- A sign that is no part of a longer one. -/
theorem meets_sign {kind : TokenKind} : (⟨.sign kind, 0⟩ : Item).Meets c [] rest kind none :=
  ⟨nofun, Nat.le_refl _, fun _ => rfl, fun _ _ => rfl⟩

/-- A sign that an equals sign may follow. -/
theorem meets_short {short long : TokenKind} : (signWithEqual short long rest).Meets c [] rest short none := by
  unfold signWithEqual
  split
  · exact ⟨nofun, Nat.zero_le _, fun hb => absurd (hb '=' rfl) (by decide), nofun⟩
  · exact meets_sign

theorem meets_long {short long : TokenKind} :
    (signWithEqual short long ('=' :: rest)).Meets c ['='] rest long none :=
  ⟨nofun, Nat.le_refl _, fun _ => rfl, fun _ _ => rfl⟩

theorem wordKind_of_means {word : String} {kind : TokenKind} (h : Means word kind) : wordKind word = kind := by
  have htable : ∀ e ∈ keywords, keywords.lookup e.1 = some e.2 := by decide
  unfold wordKind
  cases h with
  | keyword hk => rw [htable _ hk]; rfl
  | identifier hn =>
    have hnone : keywords.lookup word = none := by
      rw [List.lookup_eq_none_iff]
      intro e he
      simpa using fun hw : word = e.1 => hn e.2 (hw ▸ he)
    rw [hnone]
    rfl

theorem meets_word {kind : TokenKind} (hcs : ∀ d ∈ cs, isWordPart d = true)
    (hk : Means (String.ofList (c :: cs)) kind) :
    (⟨.word, ((cs ++ rest).takeWhile isWordPart).length⟩ : Item).Meets c cs rest kind none := by
  rw [List.takeWhile_append_of_pos hcs, List.length_append]
  refine ⟨nofun, Nat.le_add_right _ _, fun hb => ?_, fun _ span => ?_⟩
  · rw [hb.takeWhile_eq_nil (by decide)]
    rfl
  · rw [Item.token?, wordKind_of_means hk]

theorem ofLiteral_whole {ds : List Char} (hds : ∀ d ∈ ds, Number.isDigit d = true) :
    Number.ofLiteral ds = Number.Decimal.value ⟨ds, [], 0⟩ := by
  rw [Number.ofLiteral, List.takeWhile_eq_self_iff.2 hds, List.dropWhile_eq_nil_iff.2 hds]
  rfl

theorem ofLiteral_fraction {ds : List Char} (hds : ∀ d ∈ ds, Number.isDigit d = true) (fs : List Char) :
    Number.ofLiteral (ds ++ '.' :: fs) = Number.Decimal.value ⟨ds, fs, 0⟩ := by
  have hpoint : Number.isDigit '.' = false := by decide
  rw [Number.ofLiteral, List.takeWhile_append_of_pos hds, List.dropWhile_append_of_pos hds,
    List.takeWhile_cons, List.dropWhile_cons, hpoint]
  simp

theorem numberExtra_append {ds : List Char} (hds : ∀ d ∈ ds, Number.isDigit d = true) {rest : List Char}
    (hrest : rest.takeWhile Number.isDigit = []) : numberExtra (ds ++ rest) = ds.length + fractionLength rest := by
  rw [numberExtra, List.takeWhile_append_of_pos hds, hrest, List.append_nil, List.drop_left]

theorem Breaks.fractionLength_eq_zero (h : Breaks rest) : fractionLength rest = 0 := by
  unfold fractionLength
  split
  · exact absurd (h '.' rfl) (by decide)
  · rfl

theorem meets_whole (hds : ∀ d ∈ c :: cs, Number.isDigit d = true) :
    (⟨.number, numberExtra (cs ++ rest)⟩ : Item).Meets c cs rest .number
      (some (.number (Number.Decimal.value ⟨c :: cs, [], 0⟩))) := by
  have hcs : ∀ d ∈ cs, Number.isDigit d = true := fun d hd => hds d (List.mem_cons_of_mem c hd)
  refine ⟨nofun, ?_, fun hb => ?_, fun _ span => ?_⟩
  · show cs.length ≤ numberExtra (cs ++ rest)
    rw [numberExtra, List.takeWhile_append_of_pos hcs, List.length_append]
    omega
  · show numberExtra (cs ++ rest) = cs.length
    rw [numberExtra_append hcs (hb.takeWhile_eq_nil (by decide)), hb.fractionLength_eq_zero]
    rfl
  · rw [Item.token?, ofLiteral_whole hds]

theorem meets_fraction {f : Char} {fs : List Char} (hds : ∀ d ∈ c :: cs, Number.isDigit d = true)
    (hfs : ∀ d ∈ f :: fs, Number.isDigit d = true) :
    (⟨.number, numberExtra ((cs ++ '.' :: f :: fs) ++ rest)⟩ : Item).Meets c (cs ++ '.' :: f :: fs) rest .number
      (some (.number (Number.Decimal.value ⟨c :: cs, f :: fs, 0⟩))) := by
  have hcs : ∀ d ∈ cs, Number.isDigit d = true := fun d hd => hds d (List.mem_cons_of_mem c hd)
  have hextra : numberExtra ((cs ++ '.' :: f :: fs) ++ rest) =
      (cs ++ '.' :: f :: fs).length + (rest.takeWhile Number.isDigit).length := by
    have hpoint : ('.' :: f :: (fs ++ rest)).takeWhile Number.isDigit = [] := by
      rw [List.takeWhile_cons]
      rfl
    rw [List.append_assoc, List.cons_append, List.cons_append, numberExtra_append hcs hpoint, fractionLength,
      if_pos (hfs f List.mem_cons_self),
      List.takeWhile_append_of_pos fun d hd => hfs d (List.mem_cons_of_mem f hd)]
    simp only [List.length_append, List.length_cons]
    omega
  refine ⟨nofun, ?_, fun hb => ?_, fun _ span => ?_⟩
  · rw [hextra]
    exact Nat.le_add_right _ _
  · rw [hextra, hb.takeWhile_eq_nil (by decide)]
    rfl
  · rw [Item.token?, ← List.cons_append, ofLiteral_fraction hds]

theorem meets_string {body : List Char} :
    (⟨.string, body.length + 1⟩ : Item).Meets c (body ++ [c]) rest .string (some (.text (String.ofList body))) := by
  refine ⟨nofun, ?_, fun _ => ?_, fun _ span => ?_⟩
  · simp
  · simp
  · simp [Item.token?]

end Meets

theorem meets_of_sign {c : Char} {cs : List Char} {kind : TokenKind} (h : (c :: cs, kind) ∈ signs) (rest : List Char) :
    ∃ item, scanItem c (cs ++ rest) = .ok item ∧ item.Meets c cs rest kind none := by
  simp only [signs, List.mem_cons, List.not_mem_nil, or_false, Prod.mk.injEq, List.cons.injEq] at h
  casesm* _ ∨ _
  all_goals
    obtain ⟨⟨rfl, rfl⟩, rfl⟩ := h
    first
      | exact ⟨_, rfl, meets_sign⟩
      | exact ⟨_, rfl, meets_long⟩
      | exact ⟨_, rfl, meets_short⟩

theorem Lexeme.ne_nil {cs : List Char} {kind : TokenKind} {payload : Option Payload} (h : Lexeme cs kind payload) :
    cs ≠ [] := by
  have hsigns : ∀ e ∈ signs, e.1 ≠ [] := by decide
  cases h with
  | sign hs => exact hsigns _ hs
  | word => exact List.cons_ne_nil _ _
  | whole hne => exact hne
  | fraction => simp
  | string => exact List.cons_ne_nil _ _

/-- **Where a lexeme stands, an item takes it**, whatever follows. -/
theorem meets_of_lexeme {c : Char} {cs : List Char} {kind : TokenKind} {payload : Option Payload}
    (h : Lexeme (c :: cs) kind payload) (rest : List Char) :
    ∃ item, scanItem c (cs ++ rest) = .ok item ∧ item.Meets c cs rest kind payload := by
  generalize htext : c :: cs = text at h
  cases h with
  | sign hs =>
    subst htext
    exact meets_of_sign hs rest
  | word hc hcs hk =>
    cases htext
    exact ⟨_, scanItem_word ((isWordStart_iff c).2 hc) _, meets_word (fun d hd => (isWordPart_iff d).2 (hcs d hd)) hk⟩
  | whole hne hds =>
    subst htext
    exact ⟨_, scanItem_number (hds c List.mem_cons_self) _, meets_whole hds⟩
  | @fraction ds fs hne hds hfe hfs =>
    obtain ⟨d, ds, rfl⟩ := List.exists_cons_of_ne_nil hne
    obtain ⟨f, fs, rfl⟩ := List.exists_cons_of_ne_nil hfe
    rw [List.cons_append] at htext
    cases htext
    exact ⟨_, scanItem_number (hds c List.mem_cons_self) _, meets_fraction hds hfs⟩
  | string hq hb =>
    cases htext
    rw [List.append_assoc]
    exact ⟨_, scanItem_string hq hb rest, meets_string⟩

/-- The grammar says one thing of a lexeme. -/
theorem Lexeme.unique {cs : List Char} {kind kind' : TokenKind} {payload payload' : Option Payload}
    (h : Lexeme cs kind payload) (h' : Lexeme cs kind' payload') : kind' = kind ∧ payload' = payload := by
  obtain ⟨c, cs, rfl⟩ := List.exists_cons_of_ne_nil h.ne_nil
  have hend : Breaks [] := nofun
  obtain ⟨item, hitem, hm⟩ := meets_of_lexeme h []
  obtain ⟨item', hitem', hm'⟩ := meets_of_lexeme h' []
  rw [hitem, Except.ok.injEq] at hitem'
  subst hitem'
  have htoken := (hm.token (hm.most hend) default).symm.trans (hm'.token (hm'.most hend) default)
  rw [Option.some.injEq, Token.mk.injEq] at htoken
  exact ⟨htoken.1.symm, htoken.2.2.1.symm⟩

/-! ## What an item takes is a lexeme -/

theorem means_wordKind (word : String) : Means word (wordKind word) := by
  unfold wordKind
  cases hk : keywords.lookup word with
  | none =>
    refine .identifier fun kind hm => ?_
    rw [List.lookup_eq_none_iff] at hk
    simpa using hk _ hm
  | some kind =>
    obtain ⟨front, behind, hl, -⟩ := List.lookup_eq_some_iff.1 hk
    exact .keyword (by simp [hl])

/-- The item makes no token, or that of the lexeme it takes of `c :: cs`. -/
def Item.Fits (item : Item) (c : Char) (cs : List Char) : Prop :=
  ∀ span t, Item.token? item.shape (c :: cs.take item.extra) span = some t →
    Lexeme (c :: cs.take item.extra) t.kind t.payload

theorem fits_skipped {c : Char} {cs : List Char} {extra : Nat} : (⟨.skipped, extra⟩ : Item).Fits c cs :=
  fun _ _ ht => by cases ht

theorem fits_sign {c : Char} {cs : List Char} {kind : TokenKind} (h : ([c], kind) ∈ signs) :
    (⟨.sign kind, 0⟩ : Item).Fits c cs := by
  intro span t ht
  cases ht
  exact .sign h

theorem fits_signWithEqual {c : Char} {short long : TokenKind} (hs : ([c], short) ∈ signs)
    (hl : ([c, '='], long) ∈ signs) (cs : List Char) : (signWithEqual short long cs).Fits c cs := by
  unfold signWithEqual
  split
  · intro span t ht
    cases ht
    exact .sign hl
  · exact fits_sign hs

theorem fits_word {c : Char} (hc : isWordStart c = true) (cs : List Char) :
    (⟨.word, (cs.takeWhile isWordPart).length⟩ : Item).Fits c cs := by
  intro span t ht
  simp only [split_takeWhile] at ht ⊢
  cases ht
  exact .word ((isWordStart_iff c).1 hc) (fun d hd => (isWordPart_iff d).1 (List.mem_takeWhile_imp hd))
    (means_wordKind _)

/-- A number is its whole digits, or these with a point and more digits behind. -/
theorem take_numberExtra (cs : List Char) : cs.take (numberExtra cs) = cs.takeWhile Number.isDigit ∨
    ∃ f fs, (∀ d ∈ f :: fs, Number.isDigit d = true) ∧
      cs.take (numberExtra cs) = cs.takeWhile Number.isDigit ++ '.' :: f :: fs := by
  obtain ⟨htake, hdrop⟩ := split_takeWhile (p := Number.isDigit) cs
  have hparts : cs.take (numberExtra cs) = cs.takeWhile Number.isDigit ++
      (cs.dropWhile Number.isDigit).take (fractionLength (cs.dropWhile Number.isDigit)) := by
    rw [numberExtra, List.take_add, htake, hdrop]
  rw [hparts]
  generalize cs.dropWhile Number.isDigit = rest
  unfold fractionLength
  split
  · rename_i f ds
    by_cases hf : Number.isDigit f = true
    · refine .inr ⟨f, ds.takeWhile Number.isDigit, List.forall_mem_cons.2 ⟨hf, fun d => List.mem_takeWhile_imp⟩, ?_⟩
      rw [if_pos hf, Nat.add_comm, List.take_succ_cons, List.take_succ_cons, (split_takeWhile ds).1]
    · left
      rw [if_neg hf, List.take_zero, List.append_nil]
  · left
    rw [List.take_zero, List.append_nil]

theorem fits_number {c : Char} (hc : Number.isDigit c = true) (cs : List Char) :
    (⟨.number, numberExtra cs⟩ : Item).Fits c cs := by
  have hds : ∀ d ∈ c :: cs.takeWhile Number.isDigit, Number.isDigit d = true :=
    List.forall_mem_cons.2 ⟨hc, fun d => List.mem_takeWhile_imp⟩
  intro span t ht
  dsimp only at ht ⊢
  rcases take_numberExtra cs with htake | ⟨f, fs, hfs, htake⟩
  · rw [htake] at ht ⊢
    cases ht
    rw [ofLiteral_whole hds]
    exact .whole (List.cons_ne_nil _ _) hds
  · rw [htake, ← List.cons_append] at ht ⊢
    cases ht
    rw [ofLiteral_fraction hds]
    exact .fraction (List.cons_ne_nil _ _) hds (List.cons_ne_nil _ _) hfs

theorem fits_string {quote d : Char} {cs rest : List Char} (hq : quote = '"' ∨ quote = '\'')
    (hrest : cs.drop (cs.takeWhile (· != quote)).length = d :: rest) :
    (⟨.string, (cs.takeWhile (· != quote)).length + 1⟩ : Item).Fits quote cs := by
  obtain ⟨htake, hdrop⟩ := split_takeWhile (p := (· != quote)) cs
  have hd : d = quote := by
    have hstop := List.head?_dropWhile_not (· != quote) cs
    rw [← hdrop, hrest] at hstop
    simpa using hstop
  have hbody : quote ∉ cs.takeWhile (· != quote) := fun hm => by simpa using List.mem_takeWhile_imp hm
  intro span t ht
  dsimp only at ht ⊢
  rw [List.take_add, htake, hrest, hd] at ht ⊢
  cases ht
  simpa using Lexeme.string hq hbody

/-- **An item that makes a token takes a lexeme of the grammar.** -/
theorem fits_of_scanItem {c : Char} {cs : List Char} {item : Item} (h : scanItem c cs = .ok item) :
    item.Fits c cs := by
  unfold scanItem at h
  split at h
  case h_14 | h_15 | h_16 | h_17 => cases h; exact fits_signWithEqual (by decide) (by decide) cs
  case h_18 | h_19 | h_20 | h_21 | h_22 => cases h; exact fits_skipped
  case h_23 =>
    by_cases hq : (c == '"' || c == '\'') = true
    · rw [if_pos hq] at h
      dsimp only at h
      split at h
      · cases h
      · rename_i hrest
        cases h
        exact fits_string (by simpa using hq) hrest
    · rw [if_neg hq] at h
      by_cases hd : Number.isDigit c = true
      · rw [if_pos hd] at h
        cases h
        exact fits_number hd cs
      · rw [if_neg hd] at h
        by_cases hw : isWordStart c = true
        · rw [if_pos hw] at h
          cases h
          exact fits_word hw cs
        · rw [if_neg hw] at h
          cases h
  all_goals cases h; exact fits_sign (by decide)

/-! ## The tokens of a text -/

theorem token?_lexeme {shape : ItemShape} {text : List Char} {span : Span} {t : Token}
    (h : Item.token? shape text span = some t) : t.lexeme = String.ofList text ∧ t.span = span := by
  cases shape <;> cases h <;> exact ⟨rfl, rfl⟩

/-- The token of an item is the longest that its text begins with. -/
theorem longest_of_scanItem {c : Char} {cs : List Char} {item : Item} {span : Span} {t : Token}
    (h : scanItem c cs = .ok item) (ht : Item.token? item.shape (c :: cs.take item.extra) span = some t) :
    Longest (c :: cs) t := by
  have hlexeme : t.lexeme.toList = c :: cs.take item.extra := by
    rw [(token?_lexeme ht).1, String.toList_ofList]
  have hfits := fits_of_scanItem h span t ht
  rw [← hlexeme] at hfits
  refine ⟨hfits, ?_, fun {ds kind payload} hl hf => ?_, hfits.unique⟩
  · rw [hlexeme]
    exact (List.prefix_cons_inj c).2 (List.take_prefix _ _)
  · obtain ⟨d, ds, rfl⟩ := List.exists_cons_of_ne_nil hl.ne_nil
    obtain ⟨rest, hrest⟩ := hf
    rw [List.cons_append, List.cons.injEq] at hrest
    obtain ⟨rfl, rfl⟩ := hrest
    obtain ⟨item', hitem, hm⟩ := meets_of_lexeme hl rest
    rw [h, Except.ok.injEq] at hitem
    subst hitem
    have hleast := hm.least
    rw [hlexeme]
    simp only [List.length_cons, List.length_take, List.length_append]
    omega

/-- Item by item, each token of a text is the longest where it stands. -/
theorem longest_of_scanFrom {tokens : List Token} (pos line : Nat) (done : List Token) (rest : List Char)
    (h : scanFrom pos line done rest = .ok tokens) : ∀ front : List Char, pos = front.length →
      (∀ t ∈ done, Longest ((front ++ rest).drop t.span.start) t) →
      ∃ body line, tokens = body ++ [.eof ⟨(front ++ rest).length, (front ++ rest).length, line⟩] ∧
        ∀ t ∈ body, Longest ((front ++ rest).drop t.span.start) t := by
  fun_induction scanFrom pos line done rest with
  | case1 pos line done =>
    intro front hp hdone
    cases h
    rw [List.append_nil] at hdone ⊢
    exact ⟨done.reverse, line, by simp [hp], fun t ht => hdone t (List.mem_reverse.1 ht)⟩
  | case2 => cases h
  | case3 pos line done c cs item hitem text next done' ih =>
    intro front hp hdone
    have htext : front ++ c :: cs = (front ++ text) ++ cs.drop item.extra := by
      rw [List.append_assoc, List.cons_append, List.take_append_drop]
    rw [htext] at hdone ⊢
    refine ih h (front ++ text) (by rw [List.length_append, ← hp]) fun t ht => ?_
    cases htoken : Item.token? item.shape text ⟨pos, next, line⟩ with
    | none =>
      have hd : done' = done := by simp only [done', htoken]
      exact hdone t (hd ▸ ht)
    | some u =>
      have hd : done' = u :: done := by simp only [done', htoken]
      rw [hd] at ht
      rcases List.mem_cons.1 ht with rfl | ht
      · rw [← htext, (token?_lexeme htoken).2, hp, List.drop_left]
        exact longest_of_scanItem hitem htoken
      · exact hdone t ht

/-- **Scanning takes the longest lexeme.** Of a text that is scanned, each token but the end is, where it stands, the
longest lexeme of the grammar that the rest of the text begins with, and its kind and its value are those, and the only
ones, that the grammar gives this lexeme. -/
theorem scan_longest {source : String} {tokens : List Token} (h : scan source = .ok tokens) :
    ∃ body line, tokens = body ++ [.eof ⟨source.toList.length, source.toList.length, line⟩] ∧
      ∀ t ∈ body, Longest (source.toList.drop t.span.start) t :=
  longest_of_scanFrom 0 1 [] source.toList h [] rfl (List.forall_mem_nil _)

/-- Lexemes that go on where shorter ones end, and a point that belongs to no number. -/
def closeCalls : String := "forest=== 7.5<7.for'a\"b'"

/-- The word is no keyword, the fraction is one number, and the point behind the second number stands alone. -/
theorem scan_longest_closeCalls : ∃ body line, scan closeCalls = .ok (body ++ [.eof ⟨24, 24, line⟩]) ∧
    body.map (fun t => (t.kind, t.lexeme)) = [(.identifier, "forest"), (.equalEqual, "=="), (.equal, "="),
      (.number, "7.5"), (.less, "<"), (.number, "7"), (.dot, "."), (.for, "for"), (.string, "'a\"b'")] ∧
    ∀ t ∈ body, Longest (closeCalls.toList.drop t.span.start) t := by
  obtain ⟨tokens, h, hkinds⟩ : ∃ tokens, scan closeCalls = .ok tokens ∧
      tokens.dropLast.map (fun t => (t.kind, t.lexeme)) = [(.identifier, "forest"), (.equalEqual, "=="), (.equal, "="),
        (.number, "7.5"), (.less, "<"), (.number, "7"), (.dot, "."), (.for, "for"), (.string, "'a\"b'")] :=
    ⟨_, (scan_eq_scanWithin _).trans rfl, rfl⟩
  obtain ⟨body, line, rfl, hbody⟩ := scan_longest h
  rw [List.dropLast_concat] at hkinds
  exact ⟨body, line, h, hkinds, hbody⟩

end StepScript

import StepScript.Builtin.Run
import StepScript.Proofs.Number.Rational
import StepScript.Proofs.Text.Searching
import StepScript.Proofs.Text.Slicing

/-!
# What the builtins on text promise

* A bound of a part of a text is a place within the text (`placeWithin`, `clampTo_eq`), whatever number it is, and the
  part is what stands between two such places.
* Cutting at a text, replacing it, looking for it and asking for its place agree, since all of them go by what stands
  between the occurrences (`searched`).
* Copies stand in a row (`copies_within`), padding is taken from a text that starts again when it ends (`fills_cycled`),
  and nothing is built beyond the limit, although lengths and counts are held within 64 bits (`copies_beyond`).
-/

namespace StepScript.Builtin

open Number

/-! ## Parts -/

/-- The place in a text of so many characters that a number stands for. -/
def placeWithin (n : Nat) (x : Float) : Nat :=
  if x.isNaN ∨ x ≤ 0.0 then 0
  else
    match rational? x with
    | some r => min ⌊r⌋₊ n
    | none => n

/-- The characters from one place on up to another. -/
def part (t : String) (i j : Nat) : String := String.ofList ((t.toList.drop i).take (j - i))

section Parts

variable {n : Nat}

/-- **A bound is held within the text.** A length is an unsigned 64-bit number, so nothing is lost when the number is
held within these first. -/
theorem clampTo_eq (hn : n ≤ maxUnsigned) (x : Float) : clampTo n x = placeWithin n x := by
  unfold clampTo placeWithin
  by_cases h : x.isNaN = true ∨ x ≤ 0.0
  · rw [if_pos h, toUnsigned_of_low h, Nat.zero_min]
  · rw [if_neg h, toUnsigned_of_high h]
    cases rational? x with
    | none => exact Nat.min_eq_right hn
    | some r =>
      show min (min ⌊r⌋₊ maxUnsigned) n = min ⌊r⌋₊ n
      rw [Nat.min_assoc, Nat.min_eq_right hn]

theorem placeWithin_le (n : Nat) (x : Float) : placeWithin n x ≤ n := by
  unfold placeWithin
  split
  · exact Nat.zero_le n
  · split
    · exact Nat.min_le_right _ n
    · exact Nat.le_refl n

theorem ofList_between (t : String) (i j : Nat) :
    String.ofList (Text.between t.toList i j) = part t (min i j) (max i j) := by
  rw [Text.between, part, List.drop_take]

/-- What the builtin does when both bounds are given. -/
theorem run_substring (s : Store) (u : Value) (a b : Float) :
    run .substring [u, .number a, .number b] s =
      (.value (.text (String.ofList (Text.between (u.display s).toList
        (clampTo (u.display s).toList.length a) (clampTo (u.display s).toList.length b)))), s) :=
  rfl

/-- What the builtin does when there is no upper bound. -/
theorem run_substring_open (s : Store) (u : Value) (a : Float) {upper : List Value} (hupper : upper ∈ [[], [.null]]) :
    run .substring (u :: .number a :: upper) s =
      (.value (.text (String.ofList (Text.between (u.display s).toList
        (clampTo (u.display s).toList.length a) (u.display s).toList.length))), s) := by
  rcases List.mem_pair.1 hupper with rfl | rfl <;> rfl

/-- **A part of a text stands between two places within it, whatever numbers the bounds are and in whichever order.**
Where the upper bound is missing or null the part goes on to the end, and two parts that meet at a place are one. The
length of a text is an unsigned 64-bit number. -/
theorem substring_between (s : Store) (u : Value) (hlength : (u.display s).length ≤ maxUnsigned) :
    let t := u.display s
    let place := placeWithin t.length
    (∀ a b, place a ≤ t.length ∧
      run .substring [u, .number a, .number b] s =
        (.value (.text (part t (min (place a) (place b)) (max (place a) (place b)))), s) ∧
      run .substring [u, .number b, .number a] s = run .substring [u, .number a, .number b] s) ∧
    (∀ a, ∀ upper ∈ [[], [Value.null]],
      run .substring (u :: .number a :: upper) s = (.value (.text (part t (place a) t.length)), s)) ∧
    ∀ a b c, place a ≤ place b → place b ≤ place c →
      ∃ first second, run .substring [u, .number a, .number b] s = (.value (.text first), s) ∧
        run .substring [u, .number b, .number c] s = (.value (.text second), s) ∧
        run .substring [u, .number a, .number c] s = (.value (.text (first ++ second)), s) := by
  intro t place
  have hplace : ∀ x, clampTo t.toList.length x = place x := fun x => by
    rw [String.length_toList]
    exact clampTo_eq hlength x
  have hrun : ∀ a b, run .substring [u, .number a, .number b] s =
      (.value (.text (String.ofList (Text.between t.toList (place a) (place b)))), s) := fun a b => by
    rw [run_substring, hplace, hplace]
  refine ⟨fun a b => ⟨placeWithin_le _ a, ?_, ?_⟩, fun a upper hupper => ?_, fun a b c hab hbc => ?_⟩
  · rw [hrun, ofList_between]
  · rw [hrun, hrun, Text.between_comm]
  · have hle := placeWithin_le t.length a
    rw [run_substring_open s u a hupper, hplace, ofList_between, String.length_toList, Nat.min_eq_left hle,
      Nat.max_eq_right hle]
  · refine ⟨_, _, hrun a b, hrun b c, ?_⟩
    rw [hrun, ← String.ofList_append, Text.between_append hab hbc]

/-- The bounds are a fraction and no number at all, and the greater one comes first. -/
theorem substring_between_fractionFirst :
    "日本語".length ≤ maxUnsigned ∧
      run .substring [.text "日本語", .number 2.5, .number (0.0 / 0.0)] default = (.value (.text "日本"), default) := by
  have hlength : "日本語".length ≤ maxUnsigned := by decide
  have hstart : placeWithin "日本語".length 2.5 = 2 := by
    rw [← clampTo_eq hlength]
    decide
  have hstop : placeWithin "日本語".length (0.0 / 0.0) = 0 := by
    rw [← clampTo_eq hlength]
    decide
  have hrun := ((substring_between default (.text "日本語") hlength).1 2.5 (0.0 / 0.0)).2.1
  refine ⟨hlength, hrun.trans ?_⟩
  show (Answer.value (.text (part "日本語" (min (placeWithin "日本語".length 2.5) (placeWithin "日本語".length (0.0 / 0.0)))
    (max (placeWithin "日本語".length 2.5) (placeWithin "日本語".length (0.0 / 0.0))))), (default : Store)) = _
  rw [hstart, hstop]
  rfl

end Parts

/-! ## Searching -/

section Searching

variable {t d : String}

theorem toList_ne_nil (hd : d ≠ "") : d.toList ≠ [] := fun h => hd (String.toList_eq_nil_iff.1 h)

theorem splitParts_of_ne_empty (t : String) (hd : d ≠ "") :
    splitParts t d = (Text.pieces d.toList t.toList).map String.ofList := by
  rw [splitParts, if_neg (by simpa using hd)]

/-- Joined with another text, the parts are the pieces joined. -/
theorem intercalate_splitParts (t r : String) (hd : d ≠ "") :
    String.intercalate r (splitParts t d) = String.ofList (List.intercalate r.toList (Text.pieces d.toList t.toList)) := by
  apply String.toList_injective
  rw [String.toList_intercalate, splitParts_of_ne_empty t hd, List.map_map, String.toList_ofList]
  congr 1
  exact List.map_id'' (fun _ => String.toList_ofList) _

theorem occursIn_iff : occursIn t d = true ↔ d.toList <:+: t.toList := by
  rw [occursIn, Option.isSome_iff_ne_none, Ne, Text.indexOf?_eq_none_iff, Classical.not_not]

theorem placeIn_of_firstAt {i : Nat} (h : Text.FirstAt d.toList t.toList i) : placeIn t d = Float.ofNat i := by
  rw [placeIn, Text.indexOf?_eq_some_iff.2 h]

theorem placeIn_of_not_isInfix (h : ¬d.toList <:+: t.toList) : placeIn t d = -1.0 := by
  rw [placeIn, Text.indexOf?_eq_none_iff.2 h]

/-- The place is below zero where nothing is found. -/
theorem zero_le_placeIn_iff : 0.0 ≤ placeIn t d ↔ d.toList <:+: t.toList := by
  constructor
  · intro h
    by_contra hn
    rw [placeIn_of_not_isInfix hn] at h
    exact absurd h (by decide)
  · intro h
    obtain ⟨i, hi⟩ := Text.exists_firstAt h
    rw [placeIn_of_firstAt hi]
    exact zero_le_ofNat i

/-- The place is zero where the text begins with what is looked for. -/
theorem placeIn_beq_zero_iff : (placeIn t d == 0.0) = true ↔ d.toList <+: t.toList := by
  by_cases h : d.toList <:+: t.toList
  · obtain ⟨i, hi⟩ := Text.exists_firstAt h
    rw [placeIn_of_firstAt hi, ofNat_beq_zero_iff, ← Text.firstAt_zero_iff]
    exact ⟨fun hzero => hzero ▸ hi, fun hzero => hi.unique hzero⟩
  · rw [placeIn_of_not_isInfix h]
    exact ⟨fun hzero => absurd hzero (by decide), fun hprefix => absurd hprefix.isInfix h⟩

/-- What the builtin does: the parts are the elements of a new array. -/
theorem run_split (s : Store) (u v : Value) :
    run .split [u, v] s = (.value (.array s.arrays.size),
      { s with arrays := s.arrays.push ((splitParts (u.display s) (v.display s)).map Value.text).toArray }) := by
  cases s
  rfl

theorem run_replace (s : Store) (u v w : Value) (hd : v.display s ≠ "") :
    run .replace [u, v, w] s =
      (.value (.text (String.intercalate (w.display s) (splitParts (u.display s) (v.display s)))), s) := by
  have hreplace : Text.replace (v.display s).toList (w.display s).toList (u.display s).toList =
      List.intercalate (w.display s).toList (Text.pieces (v.display s).toList (u.display s).toList) :=
    if_neg (toList_ne_nil hd)
  rw [intercalate_splitParts _ _ hd, ← hreplace]
  rfl

/-- A place that was found is a place for the builtin that cuts out. -/
theorem clampTo_ofNat {n i : Nat} (hi : i ≤ n) (hsmall : i < 2 ^ 53) : clampTo n (Float.ofNat i) = i := by
  have hmax : (2 : Nat) ^ 53 ≤ maxUnsigned := by decide
  rw [clampTo, toUnsigned_of_natural (rational?_ofNat hsmall)]
  omega

/-- What is known of a text that is cut at `d`: `parts` is what it is cut into, `found` whether `d` occurs and `place`
where it does, and `starts` whether the text begins with it. -/
structure Searched (t d : String) (parts : List String) (found starts : Bool) (place : Float) : Prop where
  joined : String.intercalate d parts = t
  bare : ∀ p ∈ parts, ¬d.toList <:+: p.toList
  found_iff : found = true ↔ d.toList <:+: t.toList
  found_place : found = true ↔ 0.0 ≤ place
  found_parts : found = true ↔ 1 < parts.length
  first : found = true → ∃ p rest, parts = p :: rest ∧ place = Float.ofNat p.length ∧
    d.toList <+: t.toList.drop p.length
  starts_iff : starts = true ↔ d.toList <+: t.toList
  starts_place : starts = true ↔ (place == 0.0) = true

theorem searched (t : String) (hd : d ≠ "") :
    Searched t d (splitParts t d) (occursIn t d) (d.toList.isPrefixOf t.toList) (placeIn t d) := by
  have hcut := Text.cut_pieces (toList_ne_nil hd) t.toList
  have hparts := splitParts_of_ne_empty t hd
  refine ⟨?_, ?_, occursIn_iff, ?_, ?_, ?_, List.isPrefixOf_iff_prefix, ?_⟩
  · rw [intercalate_splitParts t d hd, hcut.intercalate, String.ofList_toList]
  · intro p hp
    rw [hparts] at hp
    obtain ⟨q, hq, rfl⟩ := List.mem_map.1 hp
    rw [String.toList_ofList]
    exact hcut.not_isInfix (toList_ne_nil hd) hq
  · rw [occursIn_iff, zero_le_placeIn_iff]
  · rw [occursIn_iff, hparts, List.length_map, hcut.one_lt_iff]
  · intro hfound
    have hfirst := hcut.firstAt (occursIn_iff.1 hfound)
    obtain ⟨q, qs, hq⟩ := List.exists_cons_of_ne_nil hcut.ne_nil
    rw [hq, List.headD_cons] at hfirst
    refine ⟨String.ofList q, qs.map String.ofList, by rw [hparts, hq, List.map_cons], ?_, ?_⟩
    · rw [placeIn_of_firstAt hfirst, String.length_ofList]
    · rw [String.length_ofList]
      exact hfirst.here
  · rw [placeIn_beq_zero_iff, List.isPrefixOf_iff_prefix]

/-- **Cutting a text, replacing in it and searching it agree.** An empty text cuts out the characters one by one.
Places are counted in numbers, which are exact up to `2 ^ 53`, and so far the place that is found can be handed on. -/
theorem searches_agree (s : Store) (u v w : Value) :
    let t := u.display s
    let d := v.display s
    (d = "" → run .split [u, v] s = (.value (.array s.arrays.size),
      { s with arrays := s.arrays.push (t.toList.map fun c => Value.text c.toString).toArray })) ∧
    (d ≠ "" → ∃ parts found starts place, Searched t d parts found starts place ∧
      run .split [u, v] s = (.value (.array s.arrays.size),
        { s with arrays := s.arrays.push (parts.map Value.text).toArray }) ∧
      run .replace [u, v, w] s = (.value (.text (String.intercalate (w.display s) parts)), s) ∧
      run .contains [u, v] s = (.value (.boolean found), s) ∧
      run .indexOf [u, v] s = (.value (.number place), s) ∧
      run .startsWith [u, v] s = (.value (.boolean starts), s) ∧
      (found = true → t.length < 2 ^ 53 → ∃ rest, run .substring [u, .number place] s = (.value (.text rest), s) ∧
        run .startsWith [.text rest, v] s = (.value (.boolean true), s))) := by
  intro t d
  refine ⟨fun hd => ?_, fun hd => ?_⟩
  · have hparts : splitParts t d = t.toList.map Char.toString := if_pos (by rw [hd]; rfl)
    rw [run_split, hparts, List.map_map]
    rfl
  · have hsearched := searched t hd
    refine ⟨_, _, _, _, hsearched, run_split s u v, run_replace s u v w hd, rfl, rfl, rfl, fun hfound hsmall => ?_⟩
    obtain ⟨p, rest, -, hplace, hprefix⟩ := hsearched.first hfound
    have hp : p.length < t.toList.length := Text.lt_length_of_prefix (toList_ne_nil hd) hprefix
    have hsmall' : p.length < 2 ^ 53 := Nat.lt_trans (by rwa [String.length_toList] at hp) hsmall
    refine ⟨String.ofList (t.toList.drop p.length), ?_, ?_⟩
    · rw [run_substring_open s u _ (by simp : [] ∈ [[], [Value.null]]), hplace, clampTo_ofNat (Nat.le_of_lt hp) hsmall',
        Text.between_length (Nat.le_of_lt hp)]
    · show (Answer.value (.boolean (d.toList.isPrefixOf (String.ofList (t.toList.drop p.length)).toList)), s) = _
      rw [String.toList_ofList, List.isPrefixOf_iff_prefix.2 hprefix]

/-- The pattern overlaps itself, and what stands before it is not one byte long. -/
theorem searches_agree_overlapping :
    "aa" ≠ "" ∧ ∃ found starts place, Searched "日aaa" "aa" ["日", "a"] found starts place ∧ place = 1.0 ∧
      run .indexOf [.text "日aaa", .text "aa"] default = (.value (.number place), default) ∧
      run .replace [.text "日aaa", .text "aa", .text "-"] default = (.value (.text "日-a"), default) := by
  have hd : "aa" ≠ "" := by decide
  have hcut : splitParts "日aaa" "aa" = ["日", "a"] := by
    rw [splitParts_of_ne_empty _ hd]
    simp [Text.pieces, Text.piecesFrom]
  obtain ⟨parts, found, starts, place, hsearched, hsplit, hreplace, -, hplace, -, -⟩ :=
    (searches_agree default (.text "日aaa") (.text "aa") (.text "-")).2 hd
  have hparts : parts = ["日", "a"] := by
    have hitems := congrArg (fun r => r.2.arrays) (hsplit.symm.trans (run_split default (.text "日aaa") (.text "aa")))
    have hmap := congrArg Array.toList (Array.push_inj_right.1 hitems)
    exact (List.map_injective_iff.2 (fun _ _ h => Value.text.inj h) hmap).trans hcut
  subst hparts
  refine ⟨hd, found, starts, place, hsearched, ?_, hplace, hreplace⟩
  obtain ⟨p, rest, hp, hnumber, -⟩ := hsearched.first (hsearched.found_parts.2 (by decide))
  obtain ⟨rfl, -⟩ := List.cons.inj hp
  rw [hnumber]
  rfl

end Searching

/-! ## Copies and padding -/

/-- What fills a text up to so many characters: its characters are those of `fill` again and again. -/
structure Fills (t fill : String) (k : ℤ) (pad : String) : Prop where
  length : fill ≠ "" → (t.length + pad.length : ℤ) = max (t.length : ℤ) k
  char : ∀ i < pad.length, pad.toList[i]? = fill.toList[i % fill.length]?
  none : fill = "" ∨ k ≤ t.length → pad = ""

section Copies

variable {x : Float} {k : ℤ} {t fill : String}

/-- Holding a length within 64 bits does not bring it below the limit. -/
theorem maxTextLength_lt_copiedLength_iff {n count : Nat} :
    maxTextLength < copiedLength n count ↔ maxTextLength < n * count := by
  have hmax : maxTextLength < maxUnsigned := by decide
  rw [copiedLength]
  omega

theorem copiedLength_eq_zero_iff {n count : Nat} : copiedLength n count = 0 ↔ n * count = 0 := by
  have hmax : 0 < maxUnsigned := by decide
  rw [copiedLength]
  omega

/-- What the builtin does: the empty text is no exception, it is copies as well. -/
theorem run_copies (s : Store) (u : Value) (x : Float) :
    run .copies [u, .number x] s =
      (.ofExcept (if toSigned x < 0 then .error .negativeRepeat
        else if maxTextLength < copiedLength (u.display s).length (toSigned x).toNat then .error .stringLength
        else .ok (.text (Text.copies (u.display s) (toSigned x).toNat))), s) := by
  have hrun : run .copies [u, .number x] s =
      (.ofExcept (if toSigned x < 0 then .error .negativeRepeat
        else if maxTextLength < copiedLength (u.display s).length (toSigned x).toNat then .error .stringLength
        else if copiedLength (u.display s).length (toSigned x).toNat = 0 then .ok (.text "")
        else .ok (.text (Text.copies (u.display s) (toSigned x).toNat))), s) := rfl
  by_cases hzero : copiedLength (u.display s).length (toSigned x).toNat = 0
  · have hcopies : Text.copies (u.display s) (toSigned x).toNat = "" := by
      rw [← String.length_eq_zero_iff, Text.length_copies, Nat.mul_comm]
      exact copiedLength_eq_zero_iff.1 hzero
    rw [hrun, if_pos hzero, hcopies]
  · rw [hrun, if_neg hzero]

/-- The text to fill up with is a blank unless one is given. -/
theorem padding_eq (b : Builtin) (s : Store) (u : Value) (x : Float) (fill? : Option Value) :
    padding b s (u :: .number x :: fill?.toList) =
      if (maxTextLength : ℤ) < toSigned x then .error .stringLength
      else .ok (u.display s, Text.cycled (fill?.elim " " (·.display s)) ((toSigned x).toNat - (u.display s).length)) := by
  cases fill? <;> rfl

/-- Holding a count within 64 bits does not change its sign, -/
theorem toSigned_neg_iff (hk : truncated? x = some k) : toSigned x < 0 ↔ k < 0 := by
  have hlow : minSigned < 0 := by decide
  have hhigh : (0 : ℤ) ≤ maxSigned := by decide
  rw [toSigned_of_truncated hk]
  omega

/-- nor on which side of the limit it is, -/
theorem maxTextLength_lt_toSigned_iff (hk : truncated? x = some k) :
    (maxTextLength : ℤ) < toSigned x ↔ (maxTextLength : ℤ) < k := by
  have hlow : minSigned < 0 := by decide
  have hhigh : (maxTextLength : ℤ) < maxSigned := by decide
  rw [toSigned_of_truncated hk]
  omega

/-- and what is not beyond the limit is the count itself. -/
theorem toSigned_eq (hk : truncated? x = some k) (hlow : 0 ≤ k) (hhigh : k ≤ maxTextLength) : toSigned x = k := by
  have hmin : minSigned < 0 := by decide
  have hmax : (maxTextLength : ℤ) < maxSigned := by decide
  rw [toSigned_of_truncated hk]
  omega

theorem cast_mul_toNat (n : Nat) (hlow : 0 ≤ k) : ((n * k.toNat : Nat) : ℤ) = n * k := by
  rw [Nat.cast_mul, Int.toNat_of_nonneg hlow]

/-- The copies that are built are as many as were asked for. -/
theorem copies_within (hk : truncated? x = some k) (hlow : 0 ≤ k) (hlength : (t.length : ℤ) * k ≤ maxTextLength) :
    t.length * (toSigned x).toNat ≤ maxTextLength ∧
      (Text.copies t (toSigned x).toNat).toList = (List.replicate k.toNat t.toList).flatten := by
  rw [Text.toList_copies]
  rcases Nat.eq_zero_or_pos t.length with hempty | hpos
  · -- Of a text without characters there may be more copies than 64 bits can count.
    have hnil : t.toList = [] := by rwa [← List.length_eq_zero_iff, String.length_toList]
    rw [hempty, Nat.zero_mul, hnil, List.flatten_replicate_nil, List.flatten_replicate_nil]
    exact ⟨Nat.zero_le _, rfl⟩
  · have hle : k ≤ maxTextLength := le_trans (le_mul_of_one_le_left hlow (by omega)) hlength
    rw [toSigned_eq hk hlow hle]
    refine ⟨?_, rfl⟩
    have hcast := cast_mul_toNat t.length hlow
    omega

/-- More than can be built is asked for, however the count is held within 64 bits. -/
theorem copies_beyond (hk : truncated? x = some k) (hlow : 0 ≤ k) (hlength : (maxTextLength : ℤ) < t.length * k) :
    maxTextLength < t.length * (toSigned x).toNat := by
  have hpos : 0 < t.length := by
    rcases Nat.eq_zero_or_pos t.length with hempty | hpos
    · rw [hempty, Nat.cast_zero, zero_mul] at hlength
      exact absurd hlength (by decide)
    · exact hpos
  by_cases hle : k ≤ maxTextLength
  · rw [toSigned_eq hk hlow hle]
    have hcast := cast_mul_toNat t.length hlow
    omega
  · have hbeyond := (maxTextLength_lt_toSigned_iff hk).2 (not_le.1 hle)
    have hcount : maxTextLength < (toSigned x).toNat := by omega
    exact lt_of_lt_of_le hcount (Nat.le_mul_of_pos_left _ hpos)

theorem fills_cycled (hk : truncated? x = some k) (hhigh : k ≤ maxTextLength) :
    Fills t fill k (Text.cycled fill ((toSigned x).toNat - t.length)) := by
  have hcount : (toSigned x).toNat = k.toNat := by
    rcases lt_or_ge k 0 with hneg | hlow
    · have := (toSigned_neg_iff hk).2 hneg
      omega
    · rw [toSigned_eq hk hlow hhigh]
  rw [hcount]
  refine ⟨fun hfill => ?_, fun i hi => ?_, fun h => ?_⟩
  · rw [Text.length_cycled hfill]
    omega
  · by_cases hfill : fill = ""
    · rw [hfill, Text.cycled_empty] at hi
      exact absurd hi (Nat.not_lt_zero i)
    · rw [Text.length_cycled hfill] at hi
      exact Text.getElem?_cycled hfill hi
  · rcases h with rfl | hshort
    · exact Text.cycled_empty _
    · have hzero : k.toNat - t.length = 0 := by omega
      rw [hzero, Text.cycled_zero]

/-- **Copies stand in a row, a text is filled up to what was asked for, and nothing longer than the limit is built.**
The count `k` may be any whole number that there is a number for: the length of the copies is compared with the limit as
it would be without an end to the 64 bits in which it is counted. -/
theorem copies_and_padding (s : Store) (u : Value) (x : Float) (k : ℤ) (hk : truncated? x = some k) :
    let t := u.display s
    (0 ≤ k ∧ t.length * k ≤ 10000000 → ∃ r, run .copies [u, .number x] s = (.value (.text r), s) ∧
      r.toList = (List.replicate k.toNat t.toList).flatten) ∧
    (¬(0 ≤ k ∧ t.length * k ≤ 10000000) → ∃ f, run .copies [u, .number x] s = (.fault f, s)) ∧
    ∀ fill? : Option Value,
      (k ≤ 10000000 → ∃ pad, Fills t (fill?.elim " " (·.display s)) k pad ∧
        run .padLeft (u :: .number x :: fill?.toList) s = (.value (.text (pad ++ t)), s) ∧
        run .padRight (u :: .number x :: fill?.toList) s = (.value (.text (t ++ pad)), s)) ∧
      (10000000 < k → ∃ f, run .padLeft (u :: .number x :: fill?.toList) s = (.fault f, s) ∧
        run .padRight (u :: .number x :: fill?.toList) s = (.fault f, s)) := by
  intro t
  refine ⟨?_, fun hnot => ?_, fun fill? => ⟨fun hhigh => ?_, fun hbeyond => ?_⟩⟩
  · rintro ⟨hlow, hlength⟩
    obtain ⟨hwithin, hcopies⟩ := copies_within hk hlow hlength
    have hneg : ¬toSigned x < 0 := fun h => absurd ((toSigned_neg_iff hk).1 h) (not_lt.2 hlow)
    rw [run_copies, if_neg hneg, if_neg (fun h => absurd (maxTextLength_lt_copiedLength_iff.1 h) (not_lt.2 hwithin))]
    exact ⟨_, rfl, hcopies⟩
  · rw [run_copies]
    by_cases hlow : 0 ≤ k
    · have hneg : ¬toSigned x < 0 := fun h => absurd ((toSigned_neg_iff hk).1 h) (not_lt.2 hlow)
      have hlength : (maxTextLength : ℤ) < t.length * k := not_le.1 fun h => hnot ⟨hlow, h⟩
      rw [if_neg hneg, if_pos (maxTextLength_lt_copiedLength_iff.2 (copies_beyond hk hlow hlength))]
      exact ⟨_, rfl⟩
    · rw [if_pos ((toSigned_neg_iff hk).2 (not_le.1 hlow))]
      exact ⟨_, rfl⟩
  · have hpadding : ∀ b, padding b s (u :: .number x :: fill?.toList) =
        .ok (t, Text.cycled (fill?.elim " " (·.display s)) ((toSigned x).toNat - t.length)) := fun b => by
      rw [padding_eq, if_neg (fun h => absurd ((maxTextLength_lt_toSigned_iff hk).1 h) (not_lt.2 hhigh))]
    refine ⟨_, fills_cycled hk hhigh, ?_, ?_⟩
    · show (Answer.ofExcept (paddedLeft s _), s) = _
      rw [paddedLeft, hpadding]
      rfl
    · show (Answer.ofExcept (paddedRight s _), s) = _
      rw [paddedRight, hpadding]
      rfl
  · have hpadding : ∀ b, padding b s (u :: .number x :: fill?.toList) = .error .stringLength := fun b => by
      rw [padding_eq, if_pos ((maxTextLength_lt_toSigned_iff hk).2 hbeyond)]
    refine ⟨.stringLength, ?_, ?_⟩
    · show (Answer.ofExcept (paddedLeft s _), s) = _
      rw [paddedLeft, hpadding]
      rfl
    · show (Answer.ofExcept (paddedRight s _), s) = _
      rw [paddedRight, hpadding]
      rfl

/-- In 64 bits the length of so many copies would be zero. -/
theorem copies_and_padding_wrapping :
    truncated? 4611686018427387904.0 = some (2 ^ 62) ∧ 4 * 2 ^ 62 % 2 ^ 64 = 0 ∧
      ∃ f, run .copies [.text "abcd", .number 4611686018427387904.0] default = (.fault f, default) := by
  have hexact : exact 4611686018427387904.0 = .finite false (2 ^ 52) 10 := by decide
  have hk : truncated? 4611686018427387904.0 = some (2 ^ 62) := by
    refine truncated?_of_integer ?_
    rw [rational?, hexact]
    norm_num
  refine ⟨hk, by decide, ?_⟩
  exact (copies_and_padding default (.text "abcd") _ _ hk).2.1 (by decide)

end Copies

end StepScript.Builtin

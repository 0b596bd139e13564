import StepScript.Value.Display

/-!
# How arrays are written out

Arrays lie in arrays, and may lie in themselves. `Written s cuts opened v t` says that `t` is how `v` is written out
inside the arrays `opened`, the innermost first: element by element, except that an array is cut short where `cuts` says
so. There is at most one such text (`Written.unique`).

* The text that is shown is the one that cuts an array short inside itself and inside 32 others (`written_showIn`).
* Where no chain of arrays inside arrays (`Nested`) comes to an array again or is longer than that, nothing is cut
  (`Written.whole`), so the text that is shown is the plain one.
-/

namespace StepScript

namespace Value

/-- The text of a value that nothing lies in; of an array it shows nothing. -/
def word : Value → String
  | null => "null"
  | boolean value => if value then "true" else "false"
  | number value => Number.text value
  | text value => value
  | array _ => "[...]"
  | closure function => "<function " ++ function.name ++ ">"
  | native function => "<native fn: " ++ function.name ++ ">"

/-- A text is how a value is written out inside the arrays `opened`, with arrays cut short where `cuts` says so. -/
inductive Written (s : Store) (cuts : List ArrayId → ArrayId → Prop) : List ArrayId → Value → String → Prop
  | word {opened : List ArrayId} {v : Value} : v.kind ≠ .array → Written s cuts opened v v.word
  | cut {opened : List ArrayId} {id : ArrayId} : cuts opened id → Written s cuts opened (.array id) "[...]"
  /-- An array by its elements, one text for each, in order. -/
  | items {opened : List ArrayId} {id : ArrayId} {texts : List String} : ¬cuts opened id →
      texts.length = (s.items id).size →
      (∀ (i : Nat) v t, (s.items id)[i]? = some v → texts[i]? = some t → Written s cuts (id :: opened) v t) →
      Written s cuts opened (.array id) ("[" ++ String.intercalate ", " texts ++ "]")

/-- An array is cut short inside itself, and inside 32 arrays. -/
def Cut (opened : List ArrayId) (id : ArrayId) : Prop := id ∈ opened ∨ 32 ≤ opened.length

/-- No array is cut short. -/
def Uncut (_ : List ArrayId) (_ : ArrayId) : Prop := False

/-- Arrays inside each other, from a value inward and the outermost first. -/
inductive Nested (s : Store) : Value → List ArrayId → Prop
  | outer (id : ArrayId) : Nested s (.array id) [id]
  | inner {id : ArrayId} {v : Value} {ids : List ArrayId} : v ∈ s.items id → Nested s v ids →
      Nested s (.array id) (id :: ids)

/-- No array lies in itself, and no more than 32 lie in each other. -/
structure Shallow (s : Store) (v : Value) : Prop where
  acyclic : ∀ ids, Nested s v ids → ids.Nodup
  depth : ∀ ids, Nested s v ids → ids.length ≤ 32

section Written

variable {s : Store} {cuts : List ArrayId → ArrayId → Prop} {opened : List ArrayId} {v : Value} {t t' : String}

/-- **A value is written out in one way.** -/
theorem Written.unique (h : Written s cuts opened v t) (h' : Written s cuts opened v t') : t = t' := by
  induction h generalizing t' with
  | word hv =>
    cases h' with
    | word => rfl
    | cut | items => exact absurd rfl hv
  | cut hc =>
    cases h' with
    | word hv => exact absurd rfl hv
    | cut => rfl
    | items hn => exact absurd hc hn
  | @items opened id texts hn hlength _ ih =>
    cases h' with
    | word hv => exact absurd rfl hv
    | cut hc => exact absurd hc hn
    | @items _ _ texts' _ hlength' hitems' =>
      have htexts : texts = texts' := by
        refine List.ext_getElem (hlength.trans hlength'.symm) fun i hi hi' => ?_
        have hitem := Array.getElem?_eq_getElem (hlength ▸ hi : i < (s.items id).size)
        have ht := List.getElem?_eq_getElem hi
        have ht' := List.getElem?_eq_getElem hi'
        exact ih i _ _ hitem ht (hitems' i _ _ hitem ht')
      rw [htexts]

/-- **What is shown is written out**, as long as the room counts the arrays that can still be opened. -/
theorem written_showIn (room : Nat) (hroom : opened.length + room = 32) :
    Written s Cut opened v (v.showIn s room opened) := by
  induction room generalizing opened v with
  | zero =>
    cases v with
    | array id => exact .cut (Or.inr (Nat.le_of_eq hroom.symm))
    | _ => exact .word (by simp [kind])
  | succ room ih =>
    cases v with
    | array id =>
      rw [showIn]
      split
      · rename_i ho
        exact .cut (Or.inl (List.contains_iff_mem.1 ho))
      · rename_i ho
        have hn : ¬Cut opened id := by
          rintro (hm | hl)
          · exact ho (List.contains_iff_mem.2 hm)
          · omega
        refine .items hn (by simp) fun i w t hw ht => ?_
        -- The text at a place is the text of the element at that place.
        have hshown : t = w.showIn s room (id :: opened) := by
          rw [List.getElem?_map, Array.getElem?_toList, hw, Option.map_some] at ht
          exact (Option.some.inj ht).symm
        rw [hshown]
        exact ih (by rw [List.length_cons]; omega)
    | _ => exact .word (by simp [kind])

/-- **Where the arrays can all be opened, nothing is cut.** -/
theorem Written.whole (h : Written s Cut opened v t)
    (hn : ∀ ids, Nested s v ids → (opened.reverse ++ ids).Nodup ∧ (opened.reverse ++ ids).length ≤ 32) :
    Written s Uncut opened v t := by
  induction h with
  | word hv => exact .word hv
  | @cut opened id hc =>
    obtain ⟨hnodup, hlength⟩ := hn [id] (.outer id)
    rcases hc with hm | hl
    · have hd := (List.nodup_append.1 hnodup).2.2 id (List.mem_reverse.2 hm) id (List.mem_singleton_self id)
      exact absurd rfl hd
    · rw [List.length_append, List.length_reverse, List.length_singleton] at hlength
      omega
  | @items opened id texts _ hlength _ ih =>
    refine .items (fun h => h) hlength fun i w t hw ht => ih i w t hw ht fun ids hids => ?_
    have h := hn (id :: ids) (.inner (Array.mem_of_getElem? hw) hids)
    rwa [List.reverse_cons, List.append_assoc]

end Written

/-- **Showing ends on every store and is faithful.** The text that is shown is the one text in which an array is cut
short exactly if it is open already or 32 arrays are, and is written by its elements in order otherwise. So where no
array lies in itself and no more than 32 lie in each other, it is the text in which every array is written out in full
wherever it is met. -/
theorem display_written (s : Store) (v : Value) :
    (∀ t, Written s Cut [] v t ↔ t = v.display s) ∧
      (Shallow s v → ∀ t, Written s Uncut [] v t ↔ t = v.display s) := by
  have hshown : Written s Cut [] v (v.display s) := written_showIn maxShownDepth rfl
  refine ⟨fun t => ⟨fun h => h.unique hshown, fun h => h ▸ hshown⟩, fun hv t => ?_⟩
  have hwhole : Written s Uncut [] v (v.display s) :=
    hshown.whole fun ids hids => ⟨hv.acyclic ids hids, hv.depth ids hids⟩
  exact ⟨fun h => h.unique hwhole, fun h => h ▸ hwhole⟩

/-- An array with itself in it twice, one with a text, and one with that one in it twice. -/
def loopAndPair : Store :=
  ⟨.root, #[#[.array 0, .array 0], #[.text "x"], #[.array 1, .array 1]], 0, Random.ofSeed 0⟩

theorem nested_pair {ids : List ArrayId} (h : Nested loopAndPair (.array 2) ids) : ids = [2] ∨ ids = [2, 1] := by
  cases h with
  | outer => exact Or.inl rfl
  | @inner _ v _ hv hids =>
    obtain rfl : v = .array 1 := by simpa [loopAndPair, Store.items] using hv
    cases hids with
    | outer => exact Or.inr rfl
    | @inner _ v _ hv hids =>
      obtain rfl : v = .text "x" := by simpa [loopAndPair, Store.items] using hv
      cases hids

/-- An array in itself is cut short; one that is shared is written out twice. -/
theorem display_written_loopAndPair :
    Written loopAndPair Cut [] (.array 0) "[[...], [...]]" ∧ Shallow loopAndPair (.array 2) ∧
      Written loopAndPair Uncut [] (.array 2) "[[x], [x]]" := by
  have hshallow : Shallow loopAndPair (.array 2) := by
    refine ⟨fun ids hids => ?_, fun ids hids => ?_⟩ <;> rcases nested_pair hids with rfl | rfl <;> decide
  refine ⟨?_, hshallow, ?_⟩
  · exact ((display_written loopAndPair (.array 0)).1 _).2 (by decide +kernel)
  · exact ((display_written loopAndPair (.array 2)).2 hshallow _).2 (by decide +kernel)

end Value

end StepScript

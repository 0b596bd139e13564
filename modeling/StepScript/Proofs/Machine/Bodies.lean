import StepScript.Proofs.Machine.Stock
import StepScript.Proofs.Machine.Trace

/-!
# Where the code that runs comes from

Every function that is called was declared in the program, and inside a call nothing runs but parts of such functions.
So what holds of all statements in the functions of a program (`Stmt.Bodies`) holds of every statement that is announced
inside a call (`Levels.visit`).

`Levels p m` puts two stocks of a machine together, one for the whole machine and one for the work inside its outermost
call (`Levels.step`, `Levels.answer`).
-/

namespace StepScript

/-! ## Parts of statements -/

namespace Stmt

/-- The body of the function that a statement declares. -/
def body : Stmt → List Stmt
  | function _ _ body _ => body
  | _ => []

/-- `p` holds of a statement and of all in it, down into the functions that it declares. -/
inductive All (p : Stmt → Prop) : Stmt → Prop
  | intro {s : Stmt} : p s → (∀ t ∈ s.parts, All p t) → (∀ t ∈ s.body, All p t) → All p s

/-- `p` holds of all in the functions that a statement declares, itself or further inside. -/
inductive Bodies (p : Stmt → Prop) : Stmt → Prop
  | intro {s : Stmt} : (∀ t ∈ s.parts, Bodies p t) → (∀ t ∈ s.body, t.All p) → Bodies p s

theorem All.bodies {p : Stmt → Prop} {s : Stmt} (h : s.All p) : s.Bodies p := by
  induction h with
  | intro _ _ hbody ih _ => exact .intro ih hbody

end Stmt

/-- What is asked of a function: `p` holds of all in its body. -/
def Demand.ofBodies (p : Stmt → Prop) : Demand := ⟨fun f => ∀ s ∈ f.body, s.All p, fun _ => True⟩

theorem goes_all (p : Stmt → Prop) : Goes (.ofBodies p) (Stmt.All p) := by
  refine ⟨?_, ?_, id⟩
  · rintro s ⟨-, hparts, -⟩
    exact hparts
  · rintro f span ⟨-, -, hbody⟩
    exact hbody

theorem goes_bodies (p : Stmt → Prop) : Goes (.ofBodies p) (Stmt.Bodies p) := by
  refine ⟨?_, ?_, fun h s hs => (h s hs).bodies⟩
  · rintro s ⟨hparts, -⟩
    exact hparts
  · rintro f span ⟨-, hbody⟩
    exact hbody

namespace Machine

/-! ## Inside calls -/

/-- A run of a program with `p` in all its functions: inside a call there is nothing but code of functions. -/
structure Levels (p : Stmt → Prop) (m : Machine) : Prop where
  working : Working [] (Store.globals, .none) .value m
  whole : Coded (.ofBodies p) (Stmt.Bodies p) [] m
  inside : m.depth = 0 ∨ ∃ base, Coded (.ofBodies p) (Stmt.All p) base m ∧ InCall base m ∧ Tallied base 0 m

section Levels

variable {p : Stmt → Prop} {m m' : Machine}

/-- What is pending inside a call lies above the base of the call. -/
theorem InCall.above {base : List Pending} (h : InCall base m) : Above base m := by
  intro w rest _ hp
  obtain ⟨inner, outer, more, hi⟩ := h
  rw [hi] at hp
  cases inner with
  | nil =>
    cases hp
    exact ⟨[], rfl⟩
  | cons v inner =>
    rw [List.cons_append] at hp
    obtain ⟨rfl, rfl⟩ := List.cons.inj hp
    exact ⟨inner ++ [.call outer more], by rw [List.append_assoc, List.singleton_append]⟩

theorem Tallied.depth_eq {base : List Pending} {d : Nat} (h : Tallied base d m) (hp : m.pending = base) :
    m.depth = d := by
  obtain ⟨inner, hi, hd, -⟩ := h
  have hn : inner = [] := by simpa using hp.symm.trans hi
  rw [hd, hn]
  rfl

/-- A call is entered: the work inside it is code of the function. -/
theorem Coded.enters {Q : Stmt → Prop} (h : Coded (.ofBodies p) Q [] m) (ha : m.focus.isApply = true) :
    Coded (.ofBodies p) (Stmt.All p) m.pending m := by
  have hcode : m.focus.code = [] := by
    cases hm : m.focus with
    | apply callee args span => rfl
    | _ =>
      rw [hm] at ha
      cases ha
  exact ⟨⟨h.store, h.latest, [], rfl, by simp⟩, by simp [hcode], h.focus.values⟩

/-- A shift that takes code apart keeps the levels. -/
theorem Levels.shift (h : Levels p m) (hs : Shift m m') (hw : Working [] (Store.globals, .none) .value m')
    (hc : ∀ {Q base}, Goes (.ofBodies p) Q → Coded (.ofBodies p) Q base m → Above base m →
      Coded (.ofBodies p) Q base m') : Levels p m' := by
  refine ⟨hw, hc (goes_bodies p) h.whole above_nil, ?_⟩
  rcases h.inside with hd | ⟨base, hcode, hin, ht⟩
  · -- outside all calls, only the start of a call leads inside one
    have hplace : ∀ {place : Place}, m'.place = place → place.2.depth = 0 → m'.depth = 0 := by
      rintro place rfl h
      exact h
    cases hs with
    | look hb => exact Or.inl (hplace hb.place hd)
    | @enter w _ hp _ _ hd' ha _ =>
      cases hcall : w.isCall with
      | false =>
        rw [hcall] at hd'
        exact Or.inl (hd'.trans hd)
      | true =>
        have hf : m.focus.isApply = true := ha hcall
        have hn := Focus.not_isDue_of_isApply hf
        refine Or.inr ⟨m.pending, hc (goes_all p) (h.whole.enters hf) ?_, ?_, [w], hp, ?_, ?_⟩
        · intro v rest hdue
          rw [hn] at hdue
          cases hdue
        · cases w with
          | call outer rest => exact ⟨[], outer, rest, hp⟩
          | _ => cases hcall
        · rw [hd', hd, hcall]
          simp [hcall]
        · intro v hv
          rw [List.mem_singleton.1 hv]
          cases w with
          | program => cases hcall
          | _ => rfl
    | hand _ _ _ hb => exact Or.inl (hplace hb.place hd)
    | next _ _ _ _ _ _ _ hl => exact Or.inl (hplace hl hd)
    | leave _ _ _ _ hl _ => exact Or.inl ((depth_of_exit hl).trans (by rw [hd, Nat.zero_sub]))
  · have ht' := hs.tallied hin.above ht
    rcases hs.inCall hin with hin' | hb
    · exact Or.inr ⟨base, hc (goes_all p) hcode hin.above, hin', ht'⟩
    · exact Or.inl (ht'.depth_eq hb.1)

/-- **A step keeps the levels.** -/
theorem Levels.step (h : Levels p m) (hb : ¬m.Back []) : Levels p m.step.1 :=
  h.shift (shift_step (h.working.takes_value hb)) (working_step h.working hb) fun hQ hc ha => hc.step hQ ha

/-- A line that is read keeps the levels. -/
theorem Levels.answer (h : Levels p m) {prompt : String} (hm : m.focus = .await prompt) (line : String) :
    Levels p (m.answer (.line line)) :=
  h.shift (shift_answer hm _) (working_answer h.working (by decide) _) fun _ hc ha => hc.answer ha _

/-- **A statement that is announced inside a call is one of a function.** -/
theorem Levels.visit (h : Levels p m) {e : Entry} (hx : m.sights = [.visit e]) (hd : e.depth ≠ 0) :
    ∃ s, p s ∧ s.line = e.line := by
  obtain ⟨s, hm, -, rfl, -⟩ := step_of_visit hx
  rcases h.inside with h0 | ⟨base, hcode, -⟩
  · exact absurd h0 hd
  · have hs := hcode.focus.1 s (by rw [hm]; simp [Focus.code])
    cases hs with
    | intro hs _ _ => exact ⟨s, hs, rfl⟩

/-- A program that sets out has its functions in its text only. -/
theorem levels_begin (registry : Registry) (config : Config) (entropy : Random) {program : Program}
    (hp : ∀ s ∈ program, s.Bodies p) : Levels p ((config.machine registry entropy).begin program) := by
  refine ⟨⟨[.program 0 program], rfl, ⟨rfl, rfl⟩, rfl⟩, ⟨⟨?_, trivial, [.program 0 program], rfl, ?_⟩, ?_⟩, Or.inl rfl⟩
  · exact sound_install (config.random entropy) fun _ _ _ => trivial
  · intro w hw
    rw [List.mem_singleton.1 hw]
    exact fits_code hp
  · exact fits_nil

end Levels

end Machine

end StepScript

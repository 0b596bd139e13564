import StepScript.Bindings
import StepScript.Value

/-!
# Scopes

The frames of a running program. A frame binds names and, unless it is the first, stands inside an older
frame; a name means what the nearest frame around the place says that binds it.

- `home?` is that frame, `get?`, `assign?` and `isDefined` go by it;
- `child`, `define` and `clear` are the other ways to change a tree of frames.
-/

namespace StepScript

/-- A frame: its own names and the frame around it. -/
structure Frame where
  slots : Bindings Value
  parent : Option FrameId

/-- A tree of frames. A frame is newer than the one around it, so every chain of frames ends. -/
structure Scopes where
  frames : Array Frame
  older : ∀ f (h : f < frames.size) p, frames[f].parent = some p → p < f

namespace Scopes

/-- One frame with no names, inside no other. -/
def root : Scopes :=
  ⟨#[⟨.empty, none⟩], by
    intro f h p hp
    match f, h with
    | 0, _ => simp at hp⟩

instance : Inhabited Scopes := ⟨root⟩

/-- How many frames there are. -/
def size (s : Scopes) : Nat := s.frames.size

/-- The names that a frame binds itself. -/
def slots (s : Scopes) (f : FrameId) : Bindings Value :=
  match s.frames[f]? with
  | some frame => frame.slots
  | none => .empty

/-- The frame around a frame. -/
def enclosing? (s : Scopes) (f : FrameId) : Option FrameId :=
  s.frames[f]?.bind Frame.parent

/-- A new frame inside `p`; it gets the next number. -/
def child (s : Scopes) (p : FrameId) : Scopes :=
  ⟨s.frames.push ⟨.empty, if p < s.frames.size then some p else none⟩, by
    intro f h q hq
    have hf : f < s.frames.size + 1 := by simpa using h
    by_cases hlt : f < s.frames.size
    · rw [Array.getElem_push_lt hlt] at hq
      exact s.older f hlt q hq
    · have he : f = s.frames.size := by omega
      subst he
      by_cases hp : p < s.frames.size
      · simp only [Array.getElem_push_eq, if_pos hp, Option.some.injEq] at hq
        exact hq ▸ hp
      · simp [Array.getElem_push_eq, if_neg hp] at hq⟩

/-- Changes the names of one frame. -/
def modify (s : Scopes) (f : FrameId) (change : Bindings Value → Bindings Value) : Scopes :=
  match s with
  | ⟨frames, older⟩ =>
    ⟨frames.modify f fun frame => ⟨change frame.slots, frame.parent⟩, by
      intro g h p hp
      simp only [Array.size_modify] at h
      rw [Array.getElem_modify] at hp
      split at hp <;> exact older g h p hp⟩

/-- Binds a name in a frame, whatever the frames around it say. -/
def define (s : Scopes) (f : FrameId) (x : String) (v : Value) : Scopes := s.modify f (·.put x v)

/-- Forgets all names of a frame. -/
def clear (s : Scopes) (f : FrameId) : Scopes := s.modify f fun _ => .empty

/-- The nearest frame, from `f` outward, that binds a name. -/
def home? (s : Scopes) (f : FrameId) (x : String) : Option FrameId :=
  if h : f < s.frames.size then
    if s.frames[f].slots.contains x then some f
    else
      match hp : s.frames[f].parent with
      | some p => s.home? p x
      | none => none
  else none
termination_by f
decreasing_by exact s.older f h p hp

/-- What a name means in a frame. -/
def get? (s : Scopes) (f : FrameId) (x : String) : Option Value :=
  (s.home? f x).bind fun g => (s.slots g).find? x

/-- Whether a name means anything in a frame. -/
def isDefined (s : Scopes) (f : FrameId) (x : String) : Bool := (s.home? f x).isSome

/-- Gives a new meaning to a name where it is bound. -/
def assign? (s : Scopes) (f : FrameId) (x : String) (v : Value) : Option Scopes :=
  match s.home? f x with
  | some g => some (s.define g x v)
  | none => none

/-! ## What the operations do to the frames -/

@[simp] theorem size_modify (s : Scopes) (f : FrameId) (change : Bindings Value → Bindings Value) :
    (s.modify f change).size = s.size := by
  simp [modify, size]

theorem slots_modify (s : Scopes) (f : FrameId) (change : Bindings Value → Bindings Value) (g : FrameId) :
    (s.modify f change).slots g = if f = g ∧ g < s.size then change (s.slots g) else s.slots g := by
  by_cases hg : g < s.frames.size
  · by_cases hf : f = g <;> simp [modify, slots, size, Array.getElem_modify, hg, hf]
  · simp [modify, slots, size, hg]

@[simp] theorem size_define (s : Scopes) (f : FrameId) (x : String) (v : Value) :
    (s.define f x v).size = s.size := size_modify s f _

theorem slots_define (s : Scopes) (f : FrameId) (x : String) (v : Value) (g : FrameId) :
    (s.define f x v).slots g = if f = g ∧ g < s.size then (s.slots g).put x v else s.slots g :=
  slots_modify s f _ g

@[simp] theorem size_child (s : Scopes) (p : FrameId) : (s.child p).size = s.size + 1 := by
  simp [child, size]

/-- A new frame has no names, no more than one that does not exist. -/
@[simp] theorem slots_child (s : Scopes) (p g : FrameId) : (s.child p).slots g = s.slots g := by
  by_cases hg : g < s.frames.size
  · simp [child, slots, Array.getElem?_push, hg, Nat.ne_of_lt hg]
  · by_cases he : g = s.frames.size <;> simp [child, slots, Array.getElem?_push, hg, he]

@[simp] theorem enclosing?_modify (s : Scopes) (f : FrameId) (change : Bindings Value → Bindings Value) (g : FrameId) :
    (s.modify f change).enclosing? g = s.enclosing? g := by
  by_cases hg : g < s.frames.size
  · by_cases hf : f = g <;> simp [modify, enclosing?, Array.getElem_modify, hg, hf]
  · simp [modify, enclosing?, hg]

@[simp] theorem enclosing?_define (s : Scopes) (f : FrameId) (x : String) (v : Value) (g : FrameId) :
    (s.define f x v).enclosing? g = s.enclosing? g := enclosing?_modify s f _ g

/-- A new frame stands inside the given one, if that exists. -/
theorem enclosing?_child (s : Scopes) (p g : FrameId) :
    (s.child p).enclosing? g =
      if g = s.size then (if p < s.size then some p else none) else s.enclosing? g := by
  by_cases hg : g = s.frames.size
  · by_cases hp : p < s.frames.size <;> simp [child, enclosing?, size, hg, hp]
  · by_cases hlt : g < s.frames.size <;> simp [child, enclosing?, size, Array.getElem?_push, hg, hlt]

/-- Chains of frames go down to older ones. -/
theorem lt_of_enclosing? {s : Scopes} {f p : FrameId} (h : s.enclosing? f = some p) : p < f ∧ f < s.size := by
  by_cases hf : f < s.frames.size
  · have hp : s.frames[f].parent = some p := by simpa [enclosing?, hf] using h
    exact ⟨s.older f hf p hp, hf⟩
  · simp [enclosing?, hf] at h

/-- A name is bound in the frame that it is found in. -/
theorem contains_of_home? {s : Scopes} {f g : FrameId} {x : String} (h : s.home? f x = some g) :
    (s.slots g).contains x = true := by
  fun_induction home? s f x with
  | case1 f hf hc =>
    cases h
    simp [slots, hf, hc]
  | case2 f hf hc p hp ih => exact ih h
  | case3 => cases h
  | case4 => cases h

theorem lt_of_home? {s : Scopes} {f g : FrameId} {x : String} (h : s.home? f x = some g) : g < s.size := by
  by_cases hg : g < s.frames.size
  · exact hg
  · have hc := contains_of_home? h
    simp [slots, hg, Bindings.contains] at hc

/-! ## The way outward

Beyond the last frame there is nothing. A name is looked up, assigned and tested along the same way: in the frame itself,
or else from the frame around it.
-/

theorem slots_of_le {s : Scopes} {f : FrameId} (h : s.size ≤ f) : s.slots f = .empty := by
  have hn : ¬f < s.frames.size := Nat.not_lt.2 h
  simp [slots, hn]

theorem enclosing?_of_le {s : Scopes} {f : FrameId} (h : s.size ≤ f) : s.enclosing? f = none := by
  have hn : ¬f < s.frames.size := Nat.not_lt.2 h
  simp [enclosing?, hn]

theorem home?_of_le {s : Scopes} {f : FrameId} {x : String} (h : s.size ≤ f) : s.home? f x = none := by
  have hn : ¬f < s.frames.size := Nat.not_lt.2 h
  rw [home?, dif_neg hn]

/-- A name is found in the frame itself, or else from the frame around it. -/
theorem home?_eq (s : Scopes) (f : FrameId) (x : String) :
    s.home? f x = if (s.slots f).contains x then some f else (s.enclosing? f).bind fun p => s.home? p x := by
  by_cases hf : f < s.frames.size
  · have hslots : s.slots f = s.frames[f].slots := by simp [slots, hf]
    have hparent : s.enclosing? f = s.frames[f].parent := by simp [enclosing?, hf]
    rw [home?, dif_pos hf, hslots, hparent]
    refine ite_congr rfl (fun _ => rfl) fun _ => ?_
    cases s.frames[f].parent <;> rfl
  · have hle : s.size ≤ f := Nat.not_lt.1 hf
    rw [home?_of_le hle, slots_of_le hle, enclosing?_of_le hle]
    rfl

/-- A name means what the frame says, or else what it means in the frame around it. -/
theorem get?_eq (s : Scopes) (f : FrameId) (x : String) :
    s.get? f x = ((s.slots f).find? x).or ((s.enclosing? f).bind fun p => s.get? p x) := by
  rw [get?, home?_eq]
  cases hx : (s.slots f).find? x with
  | some v => simp [Bindings.contains, hx]
  | none =>
    simp only [Bindings.contains, hx, Option.isSome_none, Bool.false_eq_true, if_false, Option.none_or]
    cases s.enclosing? f <;> rfl

/-- A name means something if the frame binds it or it means something in the frame around it. -/
theorem isDefined_eq (s : Scopes) (f : FrameId) (x : String) :
    s.isDefined f x = ((s.slots f).contains x || (s.enclosing? f).any fun p => s.isDefined p x) := by
  rw [isDefined, home?_eq]
  cases (s.slots f).contains x with
  | true => rfl
  | false => cases s.enclosing? f <;> rfl

/-- A name is assigned in the frame if the frame binds it, or else from the frame around it. -/
theorem assign?_eq (s : Scopes) (f : FrameId) (x : String) (v : Value) :
    s.assign? f x v =
      if (s.slots f).contains x then some (s.define f x v) else (s.enclosing? f).bind fun p => s.assign? p x v := by
  rw [assign?, home?_eq]
  cases (s.slots f).contains x with
  | true => rfl
  | false => cases s.enclosing? f <;> rfl

end Scopes

end StepScript

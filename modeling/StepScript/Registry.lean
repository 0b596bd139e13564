import StepScript.Builtin.Run
import StepScript.Scopes

/-!
# Registries

A registry lists the names that a program starts out with: builtins and numeric constants. It is put
together step by step, and a later entry of a name replaces an earlier one. A host chooses among the functions of
`Builtin`, under any names and numbers of arguments; it has none of its own.

- `Registry.standard` has every builtin under its usual names.
-/

namespace StepScript

/-- What a registered name stands for. -/
inductive Registration where
  | native (function : Native)
  | constant (value : Float)

/-- The value that a registered name starts out with. -/
def Registration.value : Registration → Value
  | native function => .native function
  | constant value => .number value

/-- Whether a value is still the one that was registered. -/
def Registration.isPristine : Registration → Value → Bool
  | native function, .native current => current.name == function.name
  | constant value, .number current => current == value
  | _, _ => false

/-- Names with their registrations. -/
abbrev Registry := Bindings Registration

namespace Registry

/-- No names at all. -/
def none : Registry := Bindings.empty

/-- Registers a builtin under a name; the name is also what it is shown as. -/
def native (r : Registry) (builtin : Builtin) (arity : Arity) (name : String) : Registry :=
  Bindings.put r name (.native ⟨name, arity, builtin⟩)

/-- Registers a builtin under several names. -/
def aliases (r : Registry) (builtin : Builtin) (arity : Arity) (names : List String) : Registry :=
  names.foldl (fun r name => native r builtin arity name) r

/-- Registers a constant. -/
def constant (r : Registry) (name : String) (value : Float) : Registry :=
  Bindings.put r name (.constant value)

/-- The ratio of a circle's circumference to its diameter. -/
def pi : Float := 3.141592653589793

/-- The base of natural logarithms. -/
def euler : Float := 2.718281828459045

/-- Every builtin with the number of arguments it takes and the names it goes by. -/
def catalogue : List (Builtin × Arity × List String) :=
  [(.print, .fixed 1, ["print"]),
   (.printLine, .fixed 1, ["etb3", "printLine", "println"]),
   (.input, .variadic, ["input", "da5l", "d5l", "scan"]),
   (.clearScreen, .fixed 0, ["clearScreen", "clear"]),
   (.sleep, .fixed 1, ["sleep"]),
   (.abs, .fixed 1, ["abs"]),
   (.round, .fixed 1, ["round"]),
   (.floor, .fixed 1, ["floor"]),
   (.ceil, .fixed 1, ["ceil"]),
   (.sqrt, .fixed 1, ["sqrt"]),
   (.sin, .fixed 1, ["sin"]),
   (.cos, .fixed 1, ["cos"]),
   (.tan, .fixed 1, ["tan"]),
   (.pow, .fixed 2, ["pow"]),
   (.random, .variadic, ["random"]),
   (.least, .variadic, ["min"]),
   (.greatest, .variadic, ["max"]),
   (.length, .fixed 1, ["length"]),
   (.toUpper, .fixed 1, ["toUpper", "toUpperCase"]),
   (.toLower, .fixed 1, ["toLower", "toLowerCase"]),
   (.substring, .variadic, ["substring"]),
   (.replace, .fixed 3, ["replace"]),
   (.split, .fixed 2, ["split"]),
   (.trim, .fixed 1, ["trim"]),
   (.startsWith, .fixed 2, ["startsWith"]),
   (.endsWith, .fixed 2, ["endsWith"]),
   (.contains, .fixed 2, ["contains"]),
   (.indexOf, .fixed 2, ["indexOf"]),
   (.copies, .fixed 2, ["repeat"]),
   (.padLeft, .variadic, ["padLeft"]),
   (.padRight, .variadic, ["padRight"]),
   (.arrayNew, .variadic, ["arrayNew"]),
   (.arrayLength, .fixed 1, ["arrayLength"]),
   (.arrayPush, .fixed 2, ["arrayPush"]),
   (.arrayPop, .fixed 1, ["arrayPop"]),
   (.kindOf, .fixed 1, ["typeof"]),
   (.parseInt, .variadic, ["parseInt"]),
   (.parseFloat, .fixed 1, ["parseFloat"]),
   (.asText, .fixed 1, ["toString"])]

/-- Every builtin and constant under its usual names. -/
def standard : Registry :=
  let builtins := catalogue.foldl (fun r e => aliases r e.1 e.2.1 e.2.2) none
  constant (constant builtins "PI" pi) "E" euler

/-- The frames a program starts out with: one global frame with the registered names. -/
def install (r : Registry) (s : Scopes) (f : FrameId) : Scopes :=
  r.entries.foldr (fun e s => s.define f e.1 e.2.value) s

/-! ## What is registered and installed -/

theorem find?_aliases (r : Registry) (b : Builtin) (arity : Arity) (names : List String) (x : String) :
    (r.aliases b arity names).find? x = if x ∈ names then some (.native ⟨x, arity, b⟩) else r.find? x := by
  unfold aliases
  induction names generalizing r with
  | nil => simp
  | cons y rest ih =>
    rw [List.foldl_cons, ih, native, Bindings.find?_put]
    by_cases hy : x = y <;> simp [hy]

theorem size_foldr_define (entries : List (String × Registration)) (s : Scopes) (f : FrameId) :
    (entries.foldr (fun e s => s.define f e.1 e.2.value) s).size = s.size := by
  induction entries with
  | nil => rfl
  | cons e rest ih => rw [List.foldr_cons, Scopes.size_define, ih]

@[simp] theorem size_install (r : Registry) (s : Scopes) (f : FrameId) : (r.install s f).size = s.size :=
  size_foldr_define r.entries s f

@[simp] theorem enclosing?_install (r : Registry) (s : Scopes) (f g : FrameId) :
    (r.install s f).enclosing? g = s.enclosing? g := by
  unfold install
  induction r.entries with
  | nil => rfl
  | cons e rest ih => rw [List.foldr_cons, Scopes.enclosing?_define, ih]

/-- A name has its registered value in the frame that the registry is installed in, if it is registered. -/
theorem find?_install (r : Registry) (s : Scopes) (f g : FrameId) (x : String) :
    ((r.install s f).slots g).find? x =
      if f = g ∧ g < s.size then ((r.find? x).map Registration.value).or ((s.slots g).find? x)
      else (s.slots g).find? x := by
  unfold install
  rw [show r.find? x = r.entries.lookup x from rfl]
  induction r.entries with
  | nil => simp
  | cons e rest ih =>
    rw [List.foldr_cons, Scopes.slots_define, size_foldr_define]
    by_cases hg : f = g ∧ g < s.size
    · rw [if_pos hg] at ih ⊢
      rw [if_pos hg, Bindings.find?_put, List.lookup_cons]
      by_cases hx : x = e.1
      · simp [hx]
      · have hb : (x == e.1) = false := by simp [hx]
        rw [if_neg hx, hb]
        exact ih
    · rw [if_neg hg] at ih ⊢
      rw [if_neg hg]
      exact ih

end Registry

end StepScript

import StepScript.Proofs.Machine.Plain
import StepScript.Proofs.Machine.Stacking

/-!
# Keyword statements and the builtins of the same name

The words that print and read are statements of their own, and they name builtins as well. So the same call can be
written as a statement, `K(e);`, and as the value of an assignment, `x = K(e);` (`TwoForms`). Both evaluate the argument
on top of different work (`advance_atop`); before and after that each has a few steps of its own that show nothing, so
that the one run trails the other (`joint_paired`).

They differ in one thing. The builtin replaces a prompt that is null or the empty text, the statement does not: where it
comes to such a prompt, the two runs part.
-/

namespace StepScript

/-- The words that read a line. -/
inductive InputWord where
  | da5l | d5l | scan
deriving DecidableEq

def InputWord.text : InputWord → String
  | da5l => "da5l"
  | d5l => "d5l"
  | scan => "scan"

/-- A call of a keyword. Printing takes one argument, reading a line takes a prompt or none. -/
inductive KeywordCall where
  | print (e : Expr)
  | printLine (e : Expr)
  | input (word : InputWord) (prompt : Option Expr)

namespace KeywordCall

/-- The word itself. -/
def spelling : KeywordCall → String
  | print _ => "print"
  | printLine _ => "etb3"
  | input word _ => word.text

/-- The builtin that the standard registry has under the word. -/
def native : KeywordCall → Native
  | print _ => ⟨"print", .fixed 1, .print⟩
  | printLine _ => ⟨"etb3", .fixed 1, .printLine⟩
  | input word _ => ⟨word.text, .variadic, .input⟩

def argument? : KeywordCall → Option Expr
  | print e | printLine e => some e
  | input _ prompt => prompt

/-- The call as a statement. -/
def statement (span : Span) : KeywordCall → Stmt
  | print e => .print e false span
  | printLine e => .print e true span
  | input word prompt => .input word.text prompt span

/-- What waits for the argument of the statement. -/
def work (span : Span) : KeywordCall → Pending
  | print _ => .write false
  | printLine _ => .write true
  | input _ _ => .prompt span

/-- The standard registry has it. -/
theorem find?_standard (c : KeywordCall) : Registry.standard.find? c.spelling = some (.native c.native) := by
  cases c with
  | print | printLine =>
    simp [spelling, native, Registry.standard, Registry.catalogue, Registry.find?_aliases, Registry.constant]
  | input word =>
    cases word <;>
      simp [spelling, native, InputWord.text, Registry.standard, Registry.catalogue, Registry.find?_aliases,
        Registry.constant]

end KeywordCall

/-- A call of a keyword in its two forms, on the same line: as a statement, and as the value of an assignment. -/
structure TwoForms where
  call : KeywordCall
  name : String
  /-- The place of the statement. -/
  span : Span
  /-- The places of the word, the call and the assignment. -/
  wordSpan : Span
  callSpan : Span
  assignSpan : Span
  line : assignSpan.line = span.line

namespace TwoForms

def statement (k : TwoForms) : Stmt := k.call.statement k.span

def assignment (k : TwoForms) : Stmt :=
  .assign k.name (.call (.name k.call.spelling k.wordSpan) k.call.argument?.toList k.callSpan) k.assignSpan

/-- What waits for the argument in the statement. -/
def below (k : TwoForms) : List Pending := [k.call.work k.span]

/-- What waits for the argument in the assignment. -/
def below' (k : TwoForms) : List Pending := [.argument (.native k.call.native) [] [] k.callSpan, .bind k.name]

end TwoForms

/-- A prompt that the builtin replaces. -/
def Value.Blank (v : Value) : Prop := v = .null ∨ v = .text ""

namespace Machine

/-- The machine with something else to do. -/
def doing (m : Machine) (focus : Focus) (pending : List Pending) : Machine :=
  { m with focus := focus, pending := pending }

/-- The word stands for the builtin. -/
def Standard (k : TwoForms) (m : Machine) : Prop :=
  m.store.scopes.get? m.here k.call.spelling = some (.native k.call.native)

/-- An input statement is about to show its prompt. -/
structure Prompts (k : TwoForms) (v : Value) (m : Machine) : Prop where
  asks : ∃ word e, k.call = .input word (some e)
  unstopped : m.stopped = false
  focus : m.focus = .give v
  pending : m.pending = k.below

/-- How the two runs come to rest, that of the assignment first: the variable is assigned and nothing else differs, or
both fail for the same cause, or both are left with the same open read. -/
inductive Concord (x : String) : Machine → Machine → Prop
  | ended {m : Machine} (v : Value) : m.finished? = some (.ok .null) → Concord x (m.assignVariable x v) m
  | failed {m : Machine} {d : Diagnostic} (d' : Diagnostic) : m.finished? = some (.error d) → d'.fault = d.fault →
      Concord x (m.turn (.fail d')) m
  | waiting {m : Machine} {prompt : String} (pending : List Pending) : m.focus = .await prompt →
      Concord x { m with pending := pending } m

/-- The assignment and the statement, where both are ready for their next watched step. -/
inductive Paired (k : TwoForms) : Machine → Machine → Prop
  | start {m : Machine} : m.Standard k →
      Paired k (m.doing (.start k.assignment) []) (m.doing (.start k.statement) [])
  /-- The builtin was looked up, and there is an argument. -/
  | argument {m : Machine} {e : Expr} : k.call.argument? = some e →
      Paired k (m.doing (.give (.native k.call.native)) [.callee [e] k.callSpan, .bind k.name])
        (m.doing (.exec k.statement) [])
  /-- The builtin was looked up, and there is none. -/
  | bare {m : Machine} : k.call.argument? = none →
      Paired k (m.doing (.apply (.native k.call.native) [] k.callSpan) [.bind k.name]) (m.doing (.exec k.statement) [])
  | evaluating {m : Machine} {e : Expr} {home : Place} : k.call.argument? = some e → Working [] home .value m →
      ¬m.Back [] → Paired k (m.atop k.below') (m.atop k.below)
  | valued {m : Machine} {e : Expr} (v : Value) : k.call.argument? = some e →
      Paired k (m.doing (.apply (.native k.call.native) [v] k.callSpan) [.bind k.name]) (m.doing (.give v) k.below)
  | failing {m : Machine} (d : Diagnostic) :
      Paired k (m.doing (.fail d) [.bind k.name]) (m.doing (.fail d) k.below)
  | awaiting {m : Machine} (prompt : String) :
      Paired k (m.doing (.await prompt) [.reply true k.callSpan, .bind k.name])
        (m.doing (.await prompt) [.reply false k.span])
  | ended {m : Machine} (v : Value) : Paired k ((m.doing .done []).assignVariable k.name v) (m.doing .done [])
  | failed {m : Machine} {d d' : Diagnostic} : d'.fault = d.fault →
      Paired k (m.doing (.fail d') []) (m.doing (.fail d) [])

/-! ## Steps of the two forms -/

section Steps

variable {k : TwoForms} {m : Machine} {focus : Focus} {pending : List Pending}

theorem back_doing (h : focus.isOutcome = true → pending ≠ []) : ¬(m.doing focus pending).Back [] :=
  fun hb => h hb.2 hb.1

theorem quiet_doing {m₁ : Machine} (h : focus.isOutcome = true → pending ≠ [])
    (hw : (m.doing focus pending).waiting? = none) (hs : (m.doing focus pending).step = (m₁, none)) :
    Quiet (m.doing focus pending) m₁ := ⟨back_doing h, hw, hs⟩

/-- The value is assigned. -/
theorem trails_ended (v : Value) : Trails (Paired k) (m.doing (.give v) [.bind k.name]) (m.doing .done []) :=
  .quiet (quiet_doing (by simp) rfl rfl) (.refl (.ended v))

/-- A failure passes the assignment by. -/
theorem trails_failed {d d' : Diagnostic} (h : d'.fault = d.fault) :
    Trails (Paired k) (m.doing (.fail d') [.bind k.name]) (m.doing (.fail d) []) :=
  .quiet (quiet_doing (by simp) rfl rfl) (.refl (.failed h))

/-- The builtin is looked up before its argument is evaluated. -/
theorem trails_exec (h : m.Standard k) :
    Trails (Paired k) (m.doing (.exec k.assignment) []) (m.doing (.exec k.statement) []) := by
  have hlookup : (m.doing (.eval (.name k.call.spelling k.wordSpan))
      [.callee k.call.argument?.toList k.callSpan, .bind k.name]).step =
      (m.doing (.give (.native k.call.native)) [.callee k.call.argument?.toList k.callSpan, .bind k.name], none) := by
    have hget : (m.doing (.eval (.name k.call.spelling k.wordSpan))
      [.callee k.call.argument?.toList k.callSpan, .bind k.name]).store.scopes.get? m.here k.call.spelling =
        some (.native k.call.native) := h
    simp only [step, doing, evalExpression] at hget ⊢
    rw [hget]
    rfl
  refine .quiet (quiet_doing (by simp [Focus.isOutcome]) rfl rfl)
    (.quiet (quiet_doing (by simp) rfl rfl) (.quiet (quiet_doing (by simp) rfl hlookup) ?_))
  cases harg : k.call.argument? with
  | some e => exact .refl (.argument harg)
  | none => exact .quiet (quiet_doing (by simp) rfl rfl) (.refl (.bare harg))

/-- Both come to wait with the same prompt, or both find that the run was stopped. -/
theorem trails_request {focus' : Focus} {prompt' prompt : String} (h : m.stopped = false → prompt' = prompt) :
    Trails (Paired k) ((m.doing focus' [.bind k.name]).request true k.callSpan prompt')
      ((m.doing focus []).request false k.span prompt) := by
  unfold request
  cases hs : m.stopped with
  | true =>
    have hstopped {focus : Focus} {pending : List Pending} : (m.doing focus pending).stopped = true := hs
    rw [if_pos hstopped, if_pos hstopped]
    exact trails_failed (m := m) rfl
  | false =>
    have hgoing {focus : Focus} {pending : List Pending} : ¬(m.doing focus pending).stopped = true :=
      Bool.eq_false_iff.1 hs
    rw [if_neg hgoing, if_neg hgoing, h hs]
    exact .refl (.awaiting (m := m) prompt)

/-- The argument is being evaluated, or it has a value or failed. -/
theorem trails_evaluated {e : Expr} (harg : k.call.argument? = some e) {home : Place} (hw : Working [] home .value m) :
    Trails (Paired k) (m.atop k.below') (m.atop k.below) := by
  by_cases hb : m.Back []
  · obtain ⟨inner, hi, hy, -⟩ := hw
    obtain rfl : inner = [] := by simpa using hb.1.symm.trans hi
    have hover (base : List Pending) : m.atop base = m.doing m.focus base := by rw [atop, hb.1]; rfl
    rw [hover, hover]
    cases hm : m.focus with
    | give v => exact .quiet (quiet_doing (by simp [TwoForms.below']) rfl rfl) (.refl (.valued v harg))
    | fail d => exact .quiet (quiet_doing (by simp [TwoForms.below']) rfl rfl) (.refl (.failing d))
    | done | leave =>
      rw [hm] at hy
      cases hy
    | _ =>
      have := hb.2
      rw [hm] at this
      cases this
  · exact .refl (.evaluating harg hw hb)

/-- The observer decides the same about both. -/
theorem heed_doing (m : Machine) (v : Verdict) : ∃ m₁ : Machine, m₁.store = m.store ∧ m₁.here = m.here ∧
    ((∃ d, ∀ focus pending, (m.doing focus pending).heed v = m₁.doing (.fail d) pending) ∨
      ∀ focus pending, (m.doing focus pending).heed v = m₁.doing focus pending) := by
  refine ⟨if v.stop then m.stop else m, ?_, ?_, ?_⟩
  · split <;> rfl
  · split <;> rfl
  · unfold heed
    cases v.course with
    | refuse d => exact Or.inl ⟨d, fun _ _ => by cases v.stop <;> rfl⟩
    | proceed | hold => exact Or.inr fun _ _ => by cases v.stop <;> rfl

variable {σ : Type} {o : Observer σ}

/-- Both show the same event. -/
theorem goOn_of_event (ho : o.Aloof) {focus' focus₁' focus₁ : Focus} {pending' pending₁' pending₁ : List Pending}
    {e : Event} (h' : focus'.isOutcome = true → pending' ≠ []) (h : focus.isOutcome = true → pending ≠ [])
    (hw' : (m.doing focus' pending').waiting? = none) (hw : (m.doing focus pending).waiting? = none)
    (hs' : (m.doing focus' pending').step = (m.doing focus₁' pending₁', some e))
    (hs : (m.doing focus pending).step = (m.doing focus₁ pending₁, some e))
    (ht : ∀ m₁ : Machine, m₁.store = m.store → m₁.here = m.here →
      Trails (Paired k) (m₁.doing focus₁' pending₁') (m₁.doing focus₁ pending₁))
    (hf : ∀ (m₁ : Machine) d, Trails (Paired k) (m₁.doing (.fail d) pending₁') (m₁.doing (.fail d) pending₁)) (s : σ) :
    GoOn o (Paired k) s (m.doing focus' pending') (m.doing focus pending) := by
  have hsees (focus : Focus) (pending : List Pending) : o.see s (m.doing focus pending) e = o.see s m e :=
    ho.sees s m focus pending e
  have hadvance' := advance_unheld ho.lets s hw' (back_doing h')
  have hadvance := advance_unheld ho.lets s hw (back_doing h)
  rw [hs'] at hadvance'
  rw [hs] at hadvance
  dsimp only at hadvance' hadvance
  rw [hsees] at hadvance' hadvance
  refine ⟨_, _, _, hadvance', hadvance, ?_⟩
  obtain ⟨m₁, hstore, hhere, ⟨d, hd⟩ | hd⟩ := heed_doing m (o.see s m e).2
  · rw [hd, hd]
    exact hf m₁ d
  · rw [hd, hd]
    exact ht m₁ hstore hhere

end Steps

/-! ## Prompts -/

section Prompts

variable {m : Machine} {s : Store} {v : Value}

/-- The builtin shows a prompt as the statement does, unless it is blank. -/
theorem promptOf_of_not_blank (hv : ¬v.Blank) : Builtin.promptOf s [v] = .ok (v.display s) := by
  unfold Builtin.promptOf
  rw [show Builtin.checkCount .input [v] (.between 0 1) = .ok () from rfl]
  simp only [bind, Except.bind]
  split
  · rename_i h
    cases h
  · rename_i h
    cases h
    exact absurd (Or.inl rfl) hv
  · rename_i h
    cases h
    exact absurd (Or.inr rfl) hv
  · rename_i h
    cases h
    rfl

theorem promptOf_of_blank (hv : v.Blank) : Builtin.promptOf s [v] = .ok defaultPrompt := by
  rcases hv with rfl | rfl <;> rfl

/-- The builtin asks for a line. -/
theorem quiet_apply_input {word : InputWord} {args : List Value} {span : Span} {x : String} {prompt : String}
    (hp : Builtin.promptOf m.store args = .ok prompt) :
    Quiet (m.doing (.apply (.native ⟨word.text, .variadic, .input⟩) args span) [.bind x])
      ((m.doing .done [.bind x]).request true span prompt) := by
  have hanswer : Builtin.reply .input args m.store = .ask prompt := by
    rw [Builtin.reply, hp]
  refine quiet_doing (by simp) rfl ?_
  show takeAnswer (m.doing _ [.bind x]) span (Builtin.reply .input args m.store) = _
  rw [hanswer]
  rfl

/-- The statement asks for a line. -/
theorem quiet_give_prompt {span : Span} : Quiet (m.doing (.give v) [.prompt span])
    ((m.doing (.give v) []).request false span (v.display m.store)) := quiet_doing (by simp) rfl rfl

/-- The two differ about a blank prompt, and about no other. -/
theorem exists_promptOf (s : Store) (v : Value) : ∃ prompt, Builtin.promptOf s [v] = .ok prompt ∧
    (¬v.Blank → prompt = v.display s) := by
  by_cases hv : v.Blank
  · exact ⟨defaultPrompt, promptOf_of_blank hv, fun h => absurd hv h⟩
  · exact ⟨v.display s, promptOf_of_not_blank hv, fun _ => rfl⟩

/-- In step, the machine that is about to show a prompt is with one that is about to apply the builtin. -/
theorem Paired.of_prompts {k : TwoForms} {m' : Machine} (hJ : Paired k m' m) (hv : m.Prompts k v) :
    ∃ m₁ : Machine, m₁.stopped = false ∧ m = m₁.doing (.give v) k.below ∧
      m' = m₁.doing (.apply (.native k.call.native) [v] k.callSpan) [.bind k.name] := by
  obtain ⟨-, hs, hf, hp⟩ := hv
  cases hJ with
  | @valued m₁ _ u _ =>
    cases hf
    exact ⟨m₁, hs, rfl, rfl⟩
  | @evaluating m₁ _ _ _ _ hb =>
    have hn : m₁.pending = [] := by simpa [atop] using hp
    have hgive : m₁.focus = .give v := hf
    exact absurd ⟨hn, by rw [hgive]; rfl⟩ hb
  | _ => cases hf

end Prompts

/-! ## Two runs -/

section Runs

variable {σ : Type} {o : Observer σ} {k : TwoForms} {m : Machine}

/-- The two forms deal with the value of the argument alike: what is written is the same, and so is a prompt that is not
blank. -/
theorem goOn_valued (ho : o.Aloof) {e : Expr} (harg : k.call.argument? = some e) {v : Value}
    (hv : ¬(m.doing (.give v) k.below).Prompts k v ∨ ¬v.Blank) (s : σ) :
    GoOn o (Paired k) s (m.doing (.apply (.native k.call.native) [v] k.callSpan) [.bind k.name])
      (m.doing (.give v) k.below) := by
  obtain ⟨call, name, span, wordSpan, callSpan, assignSpan, line⟩ := k
  cases call with
  | print e | printLine e =>
    exact goOn_of_event ho (by simp) (by simp [TwoForms.below]) rfl rfl rfl rfl (fun _ _ _ => trails_ended .null)
      (fun _ _ => trails_failed rfl) s
  | input word prompt =>
    obtain ⟨prompt', hprompt', hsame⟩ := exists_promptOf m.store v
    refine goOn_of_quiet (quiet_apply_input hprompt') quiet_give_prompt (trails_request fun hs => hsame ?_) s
    rcases hv with hv | hv
    · cases harg
      exact absurd ⟨⟨word, e, rfl⟩, hs, rfl, rfl⟩ hv
    · exact hv

/-- A read that both wait with is answered, or left open. -/
theorem advance_awaiting (prompt : String) (s : σ) :
    GoOn o (Paired k) s (m.doing (.await prompt) [.reply true k.callSpan, .bind k.name])
        (m.doing (.await prompt) [.reply false k.span]) ∨
      ComeToRest o (Concord k.name) s (m.doing (.await prompt) [.reply true k.callSpan, .bind k.name])
        (m.doing (.await prompt) [.reply false k.span]) := by
  obtain ⟨s₁, reply, hask⟩ : ∃ s₁ reply, o.ask s prompt = (s₁, reply) := ⟨_, _, rfl⟩
  cases reply with
  | none =>
    have hrests (pending : List Pending) : (m.doing (.await prompt) pending).advance o s =
        .resting s₁ (m.doing (.await prompt) pending) := by simp only [advance, doing, hask]
    exact Or.inr ⟨s₁, _, _, hrests _, hrests _, .waiting (m := m.doing (.await prompt) [.reply false k.span]) _ rfl⟩
  | some reply =>
    have hgoes (pending : List Pending) : (m.doing (.await prompt) pending).advance o s =
        .going s₁ ((m.doing (.await prompt) pending).answer reply) := by simp only [advance, doing, hask]
    refine Or.inl ⟨s₁, _, _, hgoes _, hgoes _, ?_⟩
    cases reply with
    | line text => exact trails_ended (m := m) (.text text)
    | cancelled =>
      obtain ⟨focus, pending, here, calls, store, stopped, cursor, latest, settings⟩ := m
      cases stopped with
      | true => exact trails_failed (m := ⟨focus, pending, here, calls, store, true, cursor, latest, settings⟩) rfl
      | false => exact trails_failed (m := ⟨focus, pending, here, calls, store, false, cursor, latest, settings⟩) rfl

/-- Both are announced on the same line. -/
theorem goOn_start (ho : o.Aloof) (hstd : m.Standard k) (s : σ) :
    GoOn o (Paired k) s (m.doing (.start k.assignment) []) (m.doing (.start k.statement) []) := by
  have hplain : k.statement.isBlock = false := by
    obtain ⟨call, -⟩ := k
    cases call <;> rfl
  have hline : k.statement.line = k.assignment.line := by
    rw [show k.assignment.line = k.span.line from k.line]
    obtain ⟨call, -⟩ := k
    cases call <;> rfl
  have hstep (stmt : Stmt) (hb : stmt.isBlock = false) : (m.doing (.start stmt) []).step =
      if m.stopped then (m.doing (.fail (.halted stmt.span)) [], none)
      else (m.doing (.exec stmt) [], some (.visit stmt.line)) := by
    simp only [step, doing, startStatement, hb]
    rfl
  have hs' := hstep k.assignment rfl
  have hs := hstep k.statement hplain
  cases hstop : m.stopped with
  | true =>
    rw [if_pos hstop] at hs' hs
    exact goOn_of_quiet (quiet_doing (by simp [Focus.isOutcome]) rfl hs')
      (quiet_doing (by simp [Focus.isOutcome]) rfl hs) (.refl (.failed rfl)) s
  | false =>
    rw [if_neg (Bool.eq_false_iff.1 hstop)] at hs' hs
    rw [hline] at hs
    refine goOn_of_event ho (by simp [Focus.isOutcome]) (by simp [Focus.isOutcome]) rfl rfl hs' hs ?_
      (fun _ _ => .refl (.failed rfl)) s
    intro m₁ hstore hhere
    refine trails_exec ?_
    rw [Standard, hstore, hhere]
    exact hstd

/-- The statement goes on to its argument. -/
theorem step_exec {e : Expr} (harg : k.call.argument? = some e) :
    (m.doing (.exec k.statement) []).step = (m.doing (.eval e) k.below, none) := by
  obtain ⟨call, name, span, wordSpan, callSpan, assignSpan, line⟩ := k
  cases call <;> cases harg <;> rfl

theorem step_failing (d : Diagnostic) : (m.doing (.fail d) k.below).step = (m.doing (.fail d) [], none) := by
  obtain ⟨call, -⟩ := k
  cases call <;> rfl

/-- A read without a prompt. -/
theorem goOn_bare (harg : k.call.argument? = none) (s : σ) :
    GoOn o (Paired k) s (m.doing (.apply (.native k.call.native) [] k.callSpan) [.bind k.name])
      (m.doing (.exec k.statement) []) := by
  obtain ⟨call, name, span, wordSpan, callSpan, assignSpan, line⟩ := k
  cases call with
  | print | printLine => cases harg
  | input word prompt =>
    cases harg
    have hq : Quiet (m.doing (.exec (.input word.text none span)) [])
        ((m.doing (.exec (.input word.text none span)) []).request false span defaultPrompt) :=
      quiet_doing (by simp [Focus.isOutcome]) rfl rfl
    exact goOn_of_quiet (quiet_apply_input rfl) hq (trails_request fun _ => rfl) s

/-- **The two forms make their watched steps alike**, until an input statement comes to a blank prompt. -/
theorem joint_paired (ho : o.Aloof) :
    Joint o (Paired k) (Concord k.name) fun m => ∃ v, m.Prompts k v ∧ v.Blank := by
  intro s m' m hJ hP
  cases hJ with
  | start hstd => exact Or.inl (goOn_start ho hstd s)
  | @argument m e harg =>
    have hw : Working [] m.place .value (m.doing (.eval e) []) := working_self (Or.inr rfl)
    exact Or.inl (goOn_of_quiet (quiet_doing (by simp) rfl rfl)
      (quiet_doing (by simp [Focus.isOutcome]) rfl (step_exec harg)) (trails_evaluated harg hw) s)
  | bare harg => exact Or.inl (goOn_bare harg s)
  | @evaluating m e home harg hw hb =>
    rcases advance_atop ho hw (by decide) hb s with ⟨s₁, m₁, hw₁, hadvance⟩ | ⟨s₁, prompt, hm, hadvance⟩
    · exact Or.inl ⟨s₁, _, _, hadvance _ (by simp [TwoForms.below']), hadvance _ (by simp [TwoForms.below]),
        trails_evaluated harg hw₁⟩
    · exact Or.inr ⟨s₁, _, _, hadvance _, hadvance _, .waiting (m := m.atop k.below) _ hm⟩
  | @valued m e v harg =>
    refine Or.inl (goOn_valued ho harg ?_ s)
    by_cases hv : v.Blank
    · exact Or.inl fun hp => hP ⟨v, hp, hv⟩
    · exact Or.inr hv
  | failing d =>
    exact Or.inl (goOn_of_quiet (quiet_doing (by simp) rfl rfl)
      (quiet_doing (by simp [TwoForms.below]) rfl (step_failing d)) (.refl (.failed rfl)) s)
  | awaiting prompt => exact advance_awaiting prompt s
  | ended v => exact Or.inr (comeToRest_of_back ⟨rfl, rfl⟩ ⟨rfl, rfl⟩ (.ended v rfl) s)
  | @failed m d d' hd =>
    exact Or.inr (comeToRest_of_back ⟨rfl, rfl⟩ ⟨rfl, rfl⟩ (.failed (m := m.doing (.fail d) []) d' rfl hd) s)

/-- With a blank prompt the two come to wait differently. -/
theorem Paired.parts {m' : Machine} {v : Value} (hJ : Paired k m' m) (hv : m.Prompts k v) (hb : v.Blank) :
    ∃ m₁' m₁, Quiet m' m₁' ∧ Quiet m m₁ ∧ m₁'.waiting? = some defaultPrompt ∧
      m₁.waiting? = some (v.display m₁.store) := by
  obtain ⟨n, hn, rfl, rfl⟩ := hJ.of_prompts hv
  obtain ⟨word, e, hcall⟩ := hv.asks
  obtain ⟨call, name, span, wordSpan, callSpan, assignSpan, line⟩ := k
  cases hcall
  have hgoing {focus : Focus} {pending : List Pending} : ¬(n.doing focus pending).stopped = true :=
    Bool.eq_false_iff.1 hn
  refine ⟨_, _, quiet_apply_input (promptOf_of_blank hb), quiet_give_prompt, ?_, ?_⟩
  · rw [request, if_neg hgoing]
    rfl
  · rw [request, if_neg hgoing]
    rfl

theorem standard_of_eq (h : m.store.scopes.get? m.here k.call.spelling =
    (Registry.standard.find? k.call.spelling).map Registration.value) : m.Standard k := by
  rw [Standard, h, k.call.find?_standard]
  rfl

theorem undertake_doing (hp : m.pending = []) (stmt : Stmt) :
    m.undertake (.statement stmt) = m.doing (.start stmt) [] := by
  rw [← hp]
  rfl

end Runs

end Machine

open Machine in
/-- The run of the statement comes to a prompt that the builtin would replace. -/
def ComesToBlank {σ : Type} (o : Observer σ) (s : σ) (m : Machine) (k : TwoForms) : Prop :=
  ∃ s₁ m₁ v, During o s (m.undertake (.statement k.statement)) s₁ m₁ ∧ m₁.Prompts k v ∧ v.Blank

open Machine in
/-- **A keyword statement does what the builtin of the same name does, but for blank prompts.** Where the word of a
keyword call stands for the builtin that the standard registry has under it, from any state and under any observer who
does not look at the focus and the pending work:

* only an input statement with a prompt comes to a blank one, null or the empty text;
* if it does not, the statement `K(e);` and the assignment `x = K(e);` cannot be told apart, and come to rest alike: the
  variable is assigned and nothing else differs, or both fail for the same cause, or both are left with the same open
  read;
* if it does, both come to wait for a line, the statement with the blank prompt and the builtin with the default one. -/
theorem keyword_as_builtin {σ : Type} (o : Observer σ) (ho : o.Aloof) (s : σ) (m : Machine) (hp : m.pending = [])
    (k : TwoForms) (hstd : m.store.scopes.get? m.here k.call.spelling =
      (Registry.standard.find? k.call.spelling).map Registration.value) :
    (ComesToBlank o s m k → ∃ word e, k.call = .input word (some e)) ∧
    (¬ComesToBlank o s m k →
      Twins o (Concord k.name) s (m.undertake (.statement k.assignment)) (m.undertake (.statement k.statement))) ∧
    (ComesToBlank o s m k →
      ∃ (s₁ : σ) (m₁' m₁ : Machine) (v : Value), During o s (m.undertake (.statement k.assignment)) s₁ m₁' ∧
        During o s (m.undertake (.statement k.statement)) s₁ m₁ ∧ v.Blank ∧
        m₁'.waiting? = some defaultPrompt ∧ m₁.waiting? = some (v.display m₁.store)) := by
  have ht : Trails (Paired k) (m.undertake (.statement k.assignment)) (m.undertake (.statement k.statement)) := by
    rw [undertake_doing hp, undertake_doing hp]
    exact .refl (.start (standard_of_eq hstd))
  refine ⟨?_, fun hblank => ht.twins (joint_paired ho) ?_, ?_⟩
  · rintro ⟨s₁, m₁, v, -, hv, -⟩
    exact hv.asks
  · rintro s₁ m₁ hd ⟨v, hv, hb⟩
    exact hblank ⟨s₁, m₁, v, hd, hv, hb⟩
  · rintro ⟨s₀, m₀, v₀, hd₀, hv₀, hb₀⟩
    -- The first moment at which the two part is one of both runs.
    obtain ⟨s₁, m₁', m₁, hd, ⟨v, hv, hb⟩, hd', hJ⟩ : ∃ s₁ m₁' m₁,
        During o s (m.undertake (.statement k.statement)) s₁ m₁ ∧ (∃ v, m₁.Prompts k v ∧ v.Blank) ∧
        During o s (m.undertake (.statement k.assignment)) s₁ m₁' ∧ Paired k m₁' m₁ := by
      rcases ht.forward (joint_paired ho) hd₀ with ⟨m₀', hd₀', hJ⟩ | hparted
      · exact ⟨s₀, m₀', m₀, hd₀, ⟨v₀, hv₀, hb₀⟩, hd₀', hJ⟩
      · exact hparted
    obtain ⟨m₂', m₂, hq', hq, hwait', hwait⟩ := hJ.parts hv hb
    exact ⟨s₁, m₂', m₂, v, hd'.quiet (.single hq'), hd.quiet (.single hq), hb, hwait', hwait⟩

/-- In a new session the registered names stand for what was registered. -/
theorem Session.get?_new (registry : Registry) (config : Config) (console : Console) (entropy : Random) (x : String) :
    (Session.new registry config console entropy).machine.store.scopes.get?
        (Session.new registry config console entropy).machine.here x =
      (registry.find? x).map Registration.value := get?_installed registry x

/-- A session with the standard registry and one line to read. -/
def standardSession : Session := Session.new .standard .default (.script (.ofInputs ["a"]))

/-- `print("b");` and `x = print("b");`. -/
def printText : TwoForms :=
  ⟨.print (.literal (.text "b") ⟨6, 9, 1⟩), "x", ⟨0, 11, 1⟩, ⟨4, 9, 1⟩, ⟨4, 14, 1⟩, ⟨0, 15, 1⟩, rfl⟩

/-- `scan("");` and `x = scan("");`. -/
def scanBlank : TwoForms :=
  ⟨.input .scan (some (.literal (.text "") ⟨5, 7, 1⟩)), "x", ⟨0, 9, 1⟩, ⟨4, 8, 1⟩, ⟨4, 12, 1⟩, ⟨0, 13, 1⟩, rfl⟩

theorem comesToBlank_scanBlank (m : Machine) (hp : m.pending = []) (hs : m.stopped = false) (console : Console) :
    ComesToBlank Hook.idle.observer ((), console) m scanBlank := by
  obtain ⟨focus, pending, here, calls, store, stopped, cursor, latest, settings⟩ := m
  cases hp
  cases hs
  exact ⟨_, _, .text "", .going (.going (.going .start rfl) rfl) rfl, ⟨⟨.scan, _, rfl⟩, rfl, rfl, rfl⟩, Or.inr rfl⟩

open Machine in
/-- Printing a text is the same in both forms, and reading with the empty prompt is not. -/
theorem keyword_as_builtin_printAndScan :
    Twins Hook.idle.observer (Concord "x") ((), standardSession.console)
        (standardSession.machine.undertake (.statement printText.assignment))
        (standardSession.machine.undertake (.statement printText.statement)) ∧
      ∃ s₁ m₁' m₁,
        During Hook.idle.observer ((), standardSession.console)
          (standardSession.machine.undertake (.statement scanBlank.assignment)) s₁ m₁' ∧
        During Hook.idle.observer ((), standardSession.console)
          (standardSession.machine.undertake (.statement scanBlank.statement)) s₁ m₁ ∧
        m₁'.waiting? = some "Input: " ∧ m₁.waiting? ≠ some "Input: " := by
  have hstd := Session.get?_new .standard .default (.script (.ofInputs ["a"])) (.ofSeed 0)
  obtain ⟨hprint, htwins, -⟩ := keyword_as_builtin _ aloof_idle ((), standardSession.console) standardSession.machine
    rfl printText (hstd _)
  obtain ⟨-, -, hscan⟩ := keyword_as_builtin _ aloof_idle ((), standardSession.console) standardSession.machine rfl
    scanBlank (hstd _)
  refine ⟨htwins fun hb => ?_, ?_⟩
  · obtain ⟨word, e, hcall⟩ := hprint hb
    cases hcall
  · obtain ⟨s₁, m₁', m₁, v, hd', hd, hb, hwait', hwait⟩ := hscan (comesToBlank_scanBlank _ rfl rfl _)
    refine ⟨s₁, m₁', m₁, hd', hd, hwait', ?_⟩
    rw [hwait]
    rcases hb with rfl | rfl
    · show some "null" ≠ some "Input: "
      decide
    · show some "" ≠ some "Input: "
      decide

/-- The prompts that the plain run of a statement shows. -/
def promptsShown (stmt : Stmt) : Option (List String) :=
  ((standardSession.machine.undertake (.statement stmt)).run Hook.idle.observer 40 ((), standardSession.console)).map
    fun r => match r.1.2 with
      | .script script => script.transcript.prompts.toList
      | _ => []

/-- **The two forms show different prompts** if the prompt is empty. -/
theorem blank_prompt_differs :
    promptsShown scanBlank.statement = some [""] ∧ promptsShown scanBlank.assignment = some ["Input: "] := by
  decide +kernel

end StepScript

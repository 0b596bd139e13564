import StepScript.Proofs.Grammar.Extension
import StepScript.Proofs.Grammar.Soundness
import StepScript.Proofs.Machine.Omission

/-!
# The loop that a `for` stands for

A `for` is read as a loop in which the step follows the body and which follows the start. Written out in full, it is a
block with the start and a loop whose every turn is a block with the body and the step; the tree that is made of the
parts has the outer block only if there is a start and the inner one only if there is a step (`ForParts.clad`).

The tree runs as the full block does (`for_as_blocks`). What can make a difference is a variable that is new: where
variables are made in the current frame, it outlives a block that is not there (`for_test_leaks`).
-/

namespace StepScript

theorem Reader.bind_assoc {α β γ : Type} (r : Reader α) (f : α → Reader β) (g : β → Reader γ) :
    (r >>= f) >>= g = r >>= fun a => f a >>= g := by
  funext c
  show Reader.bind (Reader.bind r f) g c = Reader.bind r (fun a => Reader.bind (f a) g) c
  unfold Reader.bind
  cases r c <;> rfl

namespace Grammar

/-! ## The parts of a `for` -/

/-- What is read of a `for`. -/
structure ForParts where
  keyword : Span
  start : Option Stmt
  condition : Option Expr
  step : Option Expr
  body : Stmt

namespace ForParts

variable (p : ForParts)

/-- The tree that is read. -/
def tree : Stmt := forLoop p.keyword p.start p.condition p.step p.body

def span : Span := p.keyword.through p.body.span

/-- What is tested before each turn. -/
def test : Expr := p.condition.getD (.literal (.boolean true) p.keyword)

/-- The body and the step in a block. A block around the body alone stands where the body does. -/
def turn : Stmt :=
  match p.step with
  | some e => .block [p.body, statementOf e e.span] p.span
  | none => .block [p.body] p.body.span

/-- The loop with a block around each turn, after the start and in a block of its own. -/
def block : Stmt := .block (p.start.toList ++ [.loop p.test p.turn p.span]) p.span

/-- What is pending where the tree lacks one of the blocks: the outer one if nothing stands before the loop, and the
inner one if nothing stands after the body. -/
inductive Lacks : List Pending → Prop
  | outer : p.start = none → Lacks []
  | inner : p.start = none → p.step = none → Lacks [.again p.test p.body]
  | innermost {s : Stmt} (outer : FrameId) : p.start = some s → p.step = none →
      Lacks [.again p.test p.body, .block outer []]

/-- **The tree is the block with blocks around single statements left out.** -/
theorem clad (h : p.body.declares = false) : Clad p.Lacks [] p.block p.tree := by
  obtain ⟨keyword, start, condition, step, body⟩ := p
  cases start with
  | none =>
    cases step with
    | none =>
      refine .wrap (Lacks.outer rfl) ?_ (.loop _ (.wrap (Lacks.inner rfl rfl) h (.same _)))
      exact h
    | some e => exact .wrap (Lacks.outer rfl) rfl (.same _)
  | some s =>
    cases step with
    | none =>
      refine .akin (.block _ (.cons s (.last fun outer => .akin (.loop _ ?_))))
      exact .wrap (Lacks.innermost outer rfl rfl) h (.same _)
    | some e => exact .akin (.same _)

end ForParts

open Reader

/-- The parts of a `for` after its keyword. -/
def forParts (n : Nat) (keyword : Token) : Reader ForParts := do
  let _ ← expect .leftParen .forOpen
  let start ← forStart n
  let condition ← optionalUntil n .semicolon
  let _ ← expect .semicolon .forCondition
  let step ← optionalUntil n .rightParen
  let _ ← expect .rightParen .forClose
  let body ← statement n
  pure ⟨keyword.span, start, condition, step, body⟩

/-- A statement that begins with `for` is the tree of its parts. -/
theorem statement_for {n : Nat} {c : Cursor} {keyword : Token} {rest : List Token} (hc : c.ahead = keyword :: rest)
    (hk : keyword.kind = .for) :
    statement (n + 1) c = (forParts n keyword >>= fun p => pure p.tree) ⟨some keyword, rest⟩ := by
  have hlead : acceptAs lead? c = .done (some (.forLead, keyword)) ⟨some keyword, rest⟩ := by
    simp only [acceptAs, hc, hk, lead?]
  rw [statement, bind_of_done hlead]
  simp only [forParts, bind_assoc]
  rfl

/-- A statement declares no function where it stands. -/
theorem Sentence.undeclared : ∀ {o : Ending} {ts : List Token} {s : Stmt}, Sentence o ts s → s.declares = false
  | _, _, _, .effect _ he _ _ => by cases he <;> rfl
  | _, _, _, .print _ _ _ _ _ _ | _, _, _, .printLine _ _ _ _ _ _ | _, _, _, .input _ _ _ _ _ _ => rfl
  | _, _, _, .block _ _ _ _ | _, _, _, .leave _ _ _ _ => rfl
  | _, _, _, .branch _ _ _ _ _ hy => hy.undeclared
  | _, _, _, .branchElse _ _ _ _ _ hy _ hn => Bool.or_eq_false_iff.2 ⟨hy.undeclared, hn.undeclared⟩
  | _, _, _, .loop _ _ _ _ _ hb => hb.undeclared
  | _, _, _, .forLoop _ _ _ _ _ _ _ _ hb ht _ hw => by
    have hbody := hb.undeclared
    cases hw with
    | start => rfl
    | plain =>
      cases ht with
      | plain => exact hbody
      | step => rfl

/-- The body of a `for` declares no function where it stands. -/
theorem reads_forParts (n : Nat) (keyword : Token) (ts : List Token) :
    Reads ts (forParts n keyword) fun _ p _ => p.body.declares = false := by
  unfold forParts
  refine .expect_bind fun _ rest₁ _ _ => ?_
  refine .bind (reads_forStart n rest₁) fun _ start rest₂ _ _ => ?_
  refine .bind (reads_optionalUntil n rest₂ .semicolon) fun _ condition rest₃ _ _ => ?_
  refine .expect_bind fun _ rest₄ _ _ => ?_
  refine .bind (reads_optionalUntil n rest₄ .rightParen) fun _ step rest₅ _ _ => ?_
  refine .expect_bind fun _ rest₆ _ _ => ?_
  refine .bind ((statements_sound n).statement rest₆) fun _ body rest₇ _ hbody => ?_
  obtain ⟨o, hs, -⟩ := hbody
  exact .pure hs.undeclared

end Grammar

/-! ## Variables that a run makes -/

/-- Whether the work is to go on with a loop. -/
def Pending.isAgain : Pending → Bool
  | .again _ _ => true
  | _ => false

namespace Machine

section Gains

variable {σ : Type} {o : Observer σ} {s s₁ : σ} {m m₁ : Machine}

/-- Whether the next step makes a variable in the current frame. -/
def gains (m : Machine) : Bool :=
  (m.step.1.store.scopes.slots m.here).entries.any fun e => !(m.store.scopes.slots m.here).contains e.1

theorem spares_of_gains {site : List Pending → Prop}
    (h : ∀ work rest, m.pending = work ++ rest → site rest → m.gains = false) : Spares site m := by
  intro _ work rest hp hsite _ x hx
  obtain ⟨e, he, rfl⟩ := List.mem_map.1 ((Bindings.lookup_isSome_iff x _).1 hx)
  have hnot := List.any_eq_false.1 (h work rest hp hsite) e he
  show (m.store.scopes.slots m.here).contains e.1 = true
  simpa using hnot

/-- Whether something holds at all moments of a run that comes to rest with the fuel. -/
def throughout (o : Observer σ) (p : Machine → Bool) : Nat → σ → Machine → Bool
  | 0, _, _ => false
  | fuel + 1, s, m =>
    p m && match m.advance o s with
      | .going s m => throughout o p fuel s m
      | .resting _ _ => true

theorem During.of_throughout {p : Machine → Bool} (h : During o s m s₁ m₁) (fuel : Nat)
    (ht : throughout o p fuel s m = true) : p m₁ = true := by
  have hrest : ∃ fuel, throughout o p fuel s₁ m₁ = true := by
    induction h with
    | start => exact ⟨fuel, ht⟩
    | going _ ha ih =>
      obtain ⟨fuel, hf⟩ := ih
      cases fuel with
      | zero => cases hf
      | succ fuel =>
        rw [throughout, ha] at hf
        exact ⟨fuel, (Bool.and_eq_true_iff.1 hf).2⟩
  obtain ⟨fuel, hf⟩ := hrest
  cases fuel with
  | zero => cases hf
  | succ fuel => exact (Bool.and_eq_true_iff.1 hf).1

/-- With more fuel a run comes to the same end. -/
theorem run_add {fuel : Nat} {r : σ × Machine} (h : m.run o fuel s = some r) (k : Nat) :
    m.run o (fuel + k) s = some r := by
  induction fuel generalizing s m with
  | zero => cases h
  | succ fuel ih =>
    rw [Nat.add_right_comm]
    rw [Machine.run] at h ⊢
    split at h
    · exact ih h
    · exact h

theorem run_unique {fuel fuel' : Nat} {r r' : σ × Machine} (h : m.run o fuel s = some r)
    (h' : m.run o fuel' s = some r') : r = r' := by
  have hsum := run_add h fuel'
  rw [Nat.add_comm, run_add h' fuel] at hsum
  exact (Option.some.inj hsum).symm

end Gains

end Machine

/-! ## A `for` runs as the block that it stands for -/

/-- **A `for` runs as the block that it stands for.** Whatever is read of a statement that begins with `for`, its tree
and the block with the start, the loop and, in each turn, the body and the step cannot be told apart: they come to the
same end, show their observer the same, and leave the frames that there were with the same variables. Where variables
are made in the current frame, this is so as long as none is made right where the tree lacks a block. -/
theorem for_as_blocks {n : Nat} {c c' : Cursor} {keyword : Token} {rest : List Token} {tree : Stmt}
    (hc : c.ahead = keyword :: rest) (hk : keyword.kind = .for) (h : Grammar.statement (n + 1) c = .done tree c') :
    ∃ p, Grammar.forParts n keyword ⟨some keyword, rest⟩ = .done p c' ∧ tree = p.tree ∧
      ∀ {σ : Type} (o : Observer σ) (s : σ) (m : Machine), o.Remote → m.Rooted → m.pending = [] →
        (m.settings.assignScope = .current → ∀ s₁ m₁, Machine.During o s (m.undertake (.statement tree)) s₁ m₁ →
          m₁.Spares p.Lacks) →
        Machine.Alike o m.store.scopes.size s (m.undertake (.statement p.block)) (m.undertake (.statement tree)) := by
  rw [Grammar.statement_for hc hk] at h
  obtain ⟨p, c₁, hp, htree⟩ := Reader.bind_done h
  cases htree
  obtain ⟨-, -, hbody⟩ := (Grammar.reads_forParts n keyword rest).done rfl hp
  exact ⟨p, hp, rfl, fun o s m ho hm hpending hs => Machine.alike_of_clad ho hm hpending (p.clad hbody) hs⟩

/-- A machine that nothing was run on, without builtins and with variables made in the current frame. -/
def bareMachine : Machine := .initial ⟨.none, 10, .current⟩ (.ofSeed 0)

/-- A console without input. -/
def mute : Unit × Console := ((), .script (.ofInputs []))

/-- The tokens of `for (go = true; go; ) go = false;`. -/
def goOnce : List Token :=
  [(.for, "for"), (.leftParen, "("), (.identifier, "go"), (.equal, "="), (.true, "true"), (.semicolon, ";"),
    (.identifier, "go"), (.semicolon, ";"), (.rightParen, ")"), (.identifier, "go"), (.equal, "="),
    (.false, "false"), (.semicolon, ";")].map fun t => ⟨t.1, t.2, none, ⟨0, 0, 1⟩⟩

/-- Its parts. -/
def goOnceParts : Grammar.ForParts :=
  let span := ⟨0, 0, 1⟩
  { keyword := span
    start := some (.assign "go" (.literal (.boolean true) span) span)
    condition := some (.name "go" span)
    step := none
    body := .assign "go" (.literal (.boolean false) span) span }

/-- A loop that has a start and no step changes a variable in its body that was made by its start. -/
theorem for_as_blocks_goOnce :
    Grammar.statement 41 ⟨none, goOnce⟩ = .done goOnceParts.tree ⟨goOnce.getLast?, []⟩ ∧
      Machine.Alike Hook.idle.observer 1 mute (bareMachine.undertake (.statement goOnceParts.block))
        (bareMachine.undertake (.statement goOnceParts.tree)) := by
  have hread : Grammar.statement 41 ⟨none, goOnce⟩ = .done goOnceParts.tree ⟨goOnce.getLast?, []⟩ := rfl
  obtain ⟨p, hp, htree, hrun⟩ := for_as_blocks (n := 40) rfl rfl hread
  obtain rfl : goOnceParts = p := by
    cases hp
    rfl
  refine ⟨hread, hrun _ _ bareMachine remote_idle (Machine.rooted_initial _ _) rfl fun _ s₁ m₁ hd => ?_⟩
  -- No turn of the loop makes a variable.
  have hturns : (m₁.pending.all (!·.isAgain) || !m₁.gains) = true :=
    hd.of_throughout (p := fun m => m.pending.all (!·.isAgain) || !m.gains) 40 (by decide +kernel)
  refine Machine.spares_of_gains fun work rest hpending hlacks => ?_
  cases hlacks with
  | outer hstart | inner hstart => cases hstart
  | innermost =>
    rw [hpending] at hturns
    simpa [Pending.isAgain] using hturns

/-- The tokens of `for (; x = false; ) {}`. -/
def assignInTest : List Token :=
  [(.for, "for"), (.leftParen, "("), (.semicolon, ";"), (.identifier, "x"), (.equal, "="), (.false, "false"),
    (.semicolon, ";"), (.rightParen, ")"), (.leftBrace, "\x7b"), (.rightBrace, "\x7d")].map
    fun t => ⟨t.1, t.2, none, ⟨0, 0, 1⟩⟩

/-- Its parts. -/
def assignInTestParts : Grammar.ForParts :=
  let span := ⟨0, 0, 1⟩
  { keyword := span
    start := none
    condition := some (.assign "x" (.literal (.boolean false) span) span)
    step := none
    body := .block [] span }

/-- **A variable that the condition makes outlives the loop** if nothing stands before the loop: there is no block that
it could end with. -/
theorem for_test_leaks :
    Grammar.statement 41 ⟨none, assignInTest⟩ = .done assignInTestParts.tree ⟨assignInTest.getLast?, []⟩ ∧
      ¬Machine.Alike Hook.idle.observer 1 mute (bareMachine.undertake (.statement assignInTestParts.block))
        (bareMachine.undertake (.statement assignInTestParts.tree)) := by
  refine ⟨rfl, fun h => ?_⟩
  have hbound : ((bareMachine.undertake (.statement assignInTestParts.tree)).run Hook.idle.observer 40 mute).map
      (fun r => (r.2.store.scopes.slots 0).contains "x") = some true := by decide +kernel
  have hfree : ((bareMachine.undertake (.statement assignInTestParts.block)).run Hook.idle.observer 40 mute).map
      (fun r => (r.2.store.scopes.slots 0).contains "x") = some false := by decide +kernel
  obtain ⟨⟨s, m⟩, hrun, hx⟩ := Option.map_eq_some_iff.1 hbound
  obtain ⟨⟨s', m'⟩, hrun', hx'⟩ := Option.map_eq_some_iff.1 hfree
  obtain ⟨fuel, m₁', F, hrun₁, hagrees⟩ := h.second 40 s m hrun
  obtain ⟨-, rfl⟩ := Prod.mk.inj (Machine.run_unique hrun₁ hrun')
  have hbinds : m₁'.store.scopes.Binds 0 "x" := (hagrees.binds_iff Nat.zero_lt_one "x").1 hx
  rw [Scopes.Binds, hx'] at hbinds
  cases hbinds

end StepScript

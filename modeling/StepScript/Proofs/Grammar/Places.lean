import StepScript.Proofs.Grammar.Alike
import StepScript.Proofs.Token.Tiling

/-!
# Nodes point into their text

The tokens of a text stand in it, and the span of a node runs from the first of its tokens to the last. So the span of
every node of a program lies in the text of the program, starts with a token, and is on the line of that token
(`pointsInto_of_compile`).
-/

namespace StepScript

/-- **The span points into the text**: at some of its characters, the first of which are those of a token, and on the
line of that token. -/
structure Span.PointsInto (span : Span) (source : String) : Prop where
  nonempty : span.start < span.stop
  within : span.stop ≤ source.toList.length
  token : ∃ tokens, scan source = .ok tokens ∧
    ∃ t ∈ tokens, t.span.start = span.start ∧ t.span.stop ≤ span.stop ∧ t.span.line = span.line
  line : span.line = 1 + (source.toList.take span.start).count '\n'

theorem Span.PointsInto.through {s t : Span} {source : String} (hs : s.PointsInto source) (ht : t.PointsInto source) :
    (s.through t).PointsInto source := by
  obtain ⟨hle, -⟩ := s.le_through_stop t
  obtain ⟨tokens, hscan, first, hfirst, hstart, hstop, hline⟩ := hs.token
  refine ⟨Nat.lt_of_lt_of_le hs.nonempty hle, ?_, ⟨tokens, hscan, first, hfirst, hstart, hstop.trans hle, hline⟩, hs.line⟩
  exact Nat.max_le.2 ⟨ht.within, hs.within⟩

/-- A token before the end points into the text. -/
theorem pointsInto_of_token {source : String} {tokens : List Token} (h : scan source = .ok tokens) {t : Token}
    (ht : t ∈ tokens) (he : t.isEof = false) : t.span.PointsInto source := by
  have hlaid := laid_of_scan h
  exact ⟨hlaid.start_lt_stop t ht he, (hlaid.within t ht).2.2, ⟨tokens, h, t, ht, rfl, Nat.le_refl _, rfl⟩,
    hlaid.lines t ht⟩

/-- **The nodes of a program point into its text.** -/
theorem pointsInto_of_compile {source : String} {program : Program} (h : compile source = .ok program) :
    ∀ span ∈ Stmt.spansOf program, span.PointsInto source := by
  cases hscan : scan source with
  | error d =>
    rw [compile, hscan] at h
    cases h
  | ok tokens =>
    rw [compile_of_scan hscan] at h
    -- Reading joins spans of tokens: what joins keep and tokens have, the nodes have.
    have hjoins : Span.Joining fun s _ => s.PointsInto source := ⟨Span.PointsInto.through⟩
    have hahead : ∀ t ∈ tokens.takeWhile fun t => !t.isEof, t.span.PointsInto source := by
      intro t ht
      refine pointsInto_of_token hscan ((List.takeWhile_sublist _).subset ht) ?_
      simpa using List.mem_takeWhile_imp ht
    have halike := Grammar.parse_alike hjoins (List.forall₂_same.2 fun t ht => ⟨rfl, rfl, rfl, hahead t ht⟩)
    rw [h] at halike
    cases halike with
    | ok hp =>
      intro span hspan
      obtain ⟨-, hpoints⟩ := hp.of_mem span hspan
      exact hpoints

end StepScript

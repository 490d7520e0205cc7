import ScriptForge.Proofs.Script.Pieces
import ScriptForge.Proofs.Script.Positions
import Mathlib.Data.List.Forall2
import Mathlib.Data.List.Infix

/-!
# Where statements stand

`LaidOut cs script spans` ties a script to the text that it was read from: each statement stands at
a span of its own, and before, between and behind the spans there are gaps and semicolons and
nothing else. Every text that parses is laid out so (`exists_spans_of_parse`), and in one way only
(`LaidOut.unique`).
-/

namespace ScriptForge.Script

open Token Text

/-! ## Spans -/

/-- Where a statement stands in a text, as offsets: its text runs from `start` up to `stop`, and its
semicolon follows if it has one. -/
structure Span where
  start : Nat
  stop : Nat
  semicolon : Option Nat
  deriving DecidableEq

/-- The offset behind a statement and its semicolon. -/
def Span.next (span : Span) : Nat :=
  match span.semicolon with
  | some k => k + 1
  | none => span.stop

/-- The characters from one offset up to another. -/
def slice (cs : List Char) (i j : Nat) : List Char :=
  (cs.take j).drop i

/-- From one offset up to another there is a gap and nothing else. -/
structure GapBetween (cs : List Char) (i j : Nat) : Prop where
  le : i ≤ j
  gap : IsGap (slice cs i j)

/-- The first character from an offset on that no gap covers is a semicolon, and stands at `k`. -/
structure SemicolonAt (cs : List Char) (i k : Nat) : Prop where
  between : GapBetween cs i k
  semicolon : cs[k]? = some ';'

/-- A statement stands at a span of a text. -/
structure Stands (cs : List Char) (statement : Statement) (span : Span) : Prop where
  start_lt_stop : span.start < span.stop
  stop_le : span.stop ≤ cs.length
  position : statement.position = placeAt cs span.start
  /-- The span has no blanks at its ends. -/
  trimmed : trim (slice cs span.start span.stop) = slice cs span.start span.stop
  content : statement.content = String.ofList (collapse (slice cs span.start span.stop))
  semicolon : ∀ k, span.semicolon = some k ↔ SemicolonAt cs span.stop k
  terminated : statement.terminated = true ↔ ∃ k, SemicolonAt cs span.stop k

/-- Between two offsets there are spans in a row, and gaps around them. -/
inductive InRow (cs : List Char) (last : Nat) : Nat → List Span → Prop
  | nil {i : Nat} : GapBetween cs i last → InRow cs last i []
  | cons {i : Nat} {span : Span} {spans : List Span} : GapBetween cs i span.start →
      InRow cs last span.next spans → InRow cs last i (span :: spans)

/-- At an offset there is the brace that closes a service, and a gap behind it up to the end. -/
def Shuts (cs : List Char) (i : Nat) : Prop :=
  ∃ final, IsFinalGap final ∧ cs.drop i = '\x7d' :: final

/-- The statements of a script stand at the spans, and all else between the braces of its service
is gaps and semicolons. -/
structure LaidOut (cs : List Char) (script : Script) (spans : List Span) : Prop where
  statements : List.Forall₂ (Stands cs) script.statements spans
  row : ∃ i j, RendersFront script.service (cs.take i) ∧ InRow cs j i spans ∧ Shuts cs j

/-! ## Slices -/

section

variable {cs before text after : List Char} {i j k : Nat}

theorem length_slice (cs : List Char) (i j : Nat) :
    (slice cs i j).length = min j cs.length - i := by
  simp [slice]

theorem slice_prefix_slice (cs : List Char) (i : Nat) (h : j ≤ k) :
    slice cs i j <+: slice cs i k := by
  have htake : cs.take j = (cs.take k).take j := by
    rw [List.take_take, Nat.min_eq_left h]
  rw [slice, slice, htake]
  exact List.IsPrefix.drop (List.take_prefix j _) i

theorem slice_append_drop (hi : i ≤ j) (hj : j ≤ cs.length) :
    slice cs i j ++ cs.drop j = cs.drop i := by
  have hlength : i ≤ (cs.take j).length := by
    rw [List.length_take]
    omega
  rw [slice, ← List.drop_append_of_le_length hlength, List.take_append_drop]

theorem slice_append (before text after : List Char) :
    slice (before ++ (text ++ after)) before.length (before.length + text.length) = text := by
  simp [slice, List.take_append]

/-- A gap is followed by a semicolon at one place, if at all. -/
theorem semicolonAt_iff {gap rest : List Char} (h : cs.drop i = gap ++ rest) (hi : i ≤ cs.length)
    (hgap : IsGap gap) (hrest : StopsGap rest) :
    SemicolonAt cs i k ↔ k = i + gap.length ∧ rest.head? = some ';' := by
  have hdrop : cs.drop (i + gap.length) = rest := by
    rw [← List.drop_drop, h, List.drop_left]
  constructor
  · rintro ⟨⟨hle, hbetween⟩, hk⟩
    obtain ⟨hlt, hsemicolon⟩ := List.getElem?_eq_some_iff.mp hk
    have hslice := slice_append_drop hle hlt.le
    rw [h, List.drop_eq_getElem_cons hlt, hsemicolon] at hslice
    have hscan : Token.gap (slice cs i k ++ ';' :: cs.drop (k + 1)) =
        (slice cs i k, ';' :: cs.drop (k + 1)) :=
      gap_append hbetween (stops_cons.mpr (by decide))
    rw [hslice, gap_append hgap hrest, Prod.mk.injEq] at hscan
    obtain ⟨rfl, rfl⟩ := hscan
    rw [length_slice, Nat.min_eq_left hlt.le]
    exact ⟨by omega, rfl⟩
  · rintro ⟨rfl, hhead⟩
    have hlength : i + gap.length ≤ cs.length := by
      have hlength := congrArg List.length h
      rw [List.length_drop, List.length_append] at hlength
      omega
    have hslice : slice cs i (i + gap.length) = gap := by
      have hall := slice_append_drop (Nat.le_add_right i gap.length) hlength
      rw [h, hdrop] at hall
      exact List.append_cancel_right hall
    refine ⟨⟨Nat.le_add_right i gap.length, by rwa [hslice]⟩, ?_⟩
    rw [← List.head?_drop, hdrop, hhead]

/-! ## One layout -/

variable {statement : Statement} {span span' : Span}

/-- A statement stands at one span. -/
theorem Stands.unique (h : Stands cs statement span) (h' : Stands cs statement span') :
    span = span' := by
  have hstart : span.start = span'.start :=
    placeAt_injective (h.start_lt_stop.le.trans h.stop_le) (h'.start_lt_stop.le.trans h'.stop_le)
      (h.position.symm.trans h'.position)
  have hcollapse : collapse (slice cs span.start span.stop) =
      collapse (slice cs span.start span'.stop) := by
    have hcontent := congrArg String.toList (h.content.symm.trans h'.content)
    rwa [String.toList_ofList, String.toList_ofList, ← hstart] at hcontent
  have hslice : slice cs span.start span.stop = slice cs span.start span'.stop := by
    rcases Nat.le_total span.stop span'.stop with hle | hle
    · have hend := (trim_eq_self_iff.mp h'.trimmed).2
      rw [← hstart] at hend
      exact eq_of_collapse_eq (slice_prefix_slice cs _ hle) hend hcollapse
    · have hend := (trim_eq_self_iff.mp h.trimmed).2
      exact (eq_of_collapse_eq (slice_prefix_slice cs _ hle) hend hcollapse.symm).symm
  have hstop : span.stop = span'.stop := by
    have hlength := congrArg List.length hslice
    rw [length_slice, length_slice, Nat.min_eq_left h.stop_le, Nat.min_eq_left h'.stop_le]
      at hlength
    have hlt := h.start_lt_stop
    have hlt' := h'.start_lt_stop
    omega
  have hsemicolon : span.semicolon = span'.semicolon := by
    refine Option.ext fun k => ?_
    rw [h.semicolon, h'.semicolon, hstop]
  obtain ⟨start, stop, semicolon⟩ := span
  cases hstart
  cases hstop
  cases hsemicolon
  rfl

/-- A text is laid out in one way. -/
theorem LaidOut.unique {script : Script} {spans spans' : List Span} (h : LaidOut cs script spans)
    (h' : LaidOut cs script spans') : spans = spans' := by
  have hunique : Relator.RightUnique (Stands cs) := fun _ _ _ => Stands.unique
  exact hunique.forall₂ h.statements h'.statements

end

/-! ## The spans of pieces -/

namespace Piece

/-- Where a piece stands if it is written at an offset. -/
def span (offset : Nat) (piece : Piece) : Span :=
  ⟨offset, offset + piece.text.length,
    piece.closing.map fun gap => offset + piece.text.length + gap.length⟩

/-- Where pieces in a row stand, the first at an offset. -/
def spans : Nat → List Piece → List Span
  | _, [] => []
  | offset, piece :: pieces => piece.span offset :: spans (offset + piece.whole.length) pieces

theorem span_next (offset : Nat) (piece : Piece) :
    (piece.span offset).next = offset + (piece.text ++ piece.ending).length := by
  cases hclosing : piece.closing with
  | none => simp [span, Span.next, ending, hclosing]
  | some gap =>
    simp [span, Span.next, ending, hclosing]
    omega

end Piece

section

variable {p : Position} {pieces : List Piece} {before after : List Char}

theorem Proper.stopsGap (h : Proper p pieces) (rest : List Char) :
    ∃ c cs, pieces.flatMap Piece.whole ++ '\x7d' :: rest = c :: cs ∧ startsNoGap c = true ∧
      c ≠ ';' := by
  rcases h.front with rfl | ⟨c, cs, hfront, hc⟩
  · exact ⟨'\x7d', rest, rfl, by decide, by decide⟩
  · refine ⟨c, cs ++ '\x7d' :: rest, by rw [hfront]; rfl, startsNoGap_of_isAlpha hc, ?_⟩
    rintro rfl
    cases hc

/-- The semicolon of a piece stands where the first thing behind its text is one. -/
theorem Piece.semicolon_span_iff {piece : Piece} {cs rest : List Char} {i : Nat}
    (hdrop : cs.drop (i + piece.text.length) = piece.ending ++ (piece.behind ++ rest))
    (hle : i + piece.text.length ≤ cs.length) (hclosing : ∀ gap ∈ piece.closing, IsGap gap)
    (hbehind : IsGap piece.behind)
    (hrest : ∃ c more, rest = c :: more ∧ startsNoGap c = true ∧ c ≠ ';') (k : Nat) :
    (piece.span i).semicolon = some k ↔ SemicolonAt cs (i + piece.text.length) k := by
  unfold Piece.ending at hdrop
  unfold Piece.span
  cases hclosed : piece.closing with
  | none =>
    obtain ⟨c, more, rfl, hc, hne⟩ := hrest
    rw [hclosed, List.nil_append] at hdrop
    rw [semicolonAt_iff hdrop hle hbehind (stopsGap_of_startsNoGap hc)]
    simp [hne]
  | some gap =>
    rw [hclosed, List.append_assoc] at hdrop
    rw [semicolonAt_iff hdrop hle (hclosing gap hclosed) (stops_cons.mpr (by decide))]
    simp [eq_comm]

/-- A piece stands where it is written. -/
theorem Proper.stands_head {piece : Piece} (h : Proper p (piece :: pieces))
    (hp : p = Position.start.afterText before) (final : List Char) :
    Stands (before ++ (piece.whole ++ (pieces.flatMap Piece.whole ++ '\x7d' :: final)))
      (piece.statement p) (piece.span before.length) := by
  cases h with
  | cons hkind hclosing hbehind hlast hmore =>
    generalize hrest : pieces.flatMap Piece.whole ++ '\x7d' :: final = rest
    have hcs : before ++ (piece.whole ++ rest) =
        before ++ (piece.text ++ (piece.ending ++ (piece.behind ++ rest))) := by
      simp [Piece.whole]
    rw [hcs]
    have hslice := slice_append before piece.text (piece.ending ++ (piece.behind ++ rest))
    generalize hall : before ++ (piece.text ++ (piece.ending ++ (piece.behind ++ rest))) = cs
      at hslice ⊢
    have hle : before.length + piece.text.length ≤ cs.length := by
      rw [← hall]
      simp
    have hdrop : cs.drop (before.length + piece.text.length) =
        piece.ending ++ (piece.behind ++ rest) := by
      rw [← hall, ← List.drop_drop, List.drop_left, List.drop_left]
    have hnext : ∃ c more, rest = c :: more ∧ startsNoGap c = true ∧ c ≠ ';' :=
      hrest ▸ hmore.stopsGap final
    have hsemicolon := Piece.semicolon_span_iff hdrop hle hclosing hbehind hnext
    exact {
      start_lt_stop := Nat.lt_add_of_pos_right (List.length_pos_iff.mpr hkind.ne_nil)
      stop_le := hle
      position := by
        rw [placeAt_eq, ← hall]
        simpa [Piece.statement, Piece.span] using hp
      trimmed := by
        simp only [Piece.span, hslice]
        exact hkind.trim_eq
      content := by simp only [Piece.span, Piece.statement, hslice]
      semicolon := hsemicolon
      terminated := by
        simp only [← hsemicolon, Piece.span, Piece.statement, ← Option.isSome_iff_exists,
          Option.isSome_map] }

/-- Pieces stand where they are written. -/
theorem Proper.stands (h : Proper p pieces) (hp : p = Position.start.afterText before)
    (final : List Char) :
    List.Forall₂ (Stands (before ++ (pieces.flatMap Piece.whole ++ '\x7d' :: final)))
      (Piece.statements p pieces) (Piece.spans before.length pieces) := by
  induction pieces generalizing p before with
  | nil => exact .nil
  | cons piece pieces ih =>
    have hhead := h.stands_head hp final
    cases h with
    | cons _ _ _ _ hmore =>
      have hbehind : p.afterText piece.whole =
          Position.start.afterText (before ++ piece.whole) := by
        rw [hp, Position.afterText_append]
      have htail := ih hmore hbehind
      rw [List.length_append, List.append_assoc] at htail
      rw [List.flatMap_cons, List.append_assoc]
      exact .cons hhead htail

/-- Around pieces there are gaps and semicolons. -/
theorem Proper.inRow (h : Proper p pieces) {gap : List Char} (hgap : IsGap gap)
    (final : List Char) :
    InRow (before ++ (gap ++ (pieces.flatMap Piece.whole ++ final)))
      (before.length + gap.length + (pieces.flatMap Piece.whole).length) before.length
      (Piece.spans (before.length + gap.length) pieces) := by
  have hbetween : ∀ rest, GapBetween (before ++ (gap ++ rest)) before.length
      (before.length + gap.length) := by
    intro rest
    exact ⟨Nat.le_add_right _ _, by rwa [slice_append]⟩
  induction h generalizing before gap with
  | nil => exact .nil (hbetween _)
  | @cons p piece pieces hkind hclosing hbehind hlast hmore ih =>
    refine .cons (hbetween _) ?_
    have hmore := @ih (before ++ (gap ++ (piece.text ++ piece.ending))) piece.behind hbehind
      fun rest => ⟨Nat.le_add_right _ _, by rwa [slice_append]⟩
    simpa [Piece.span_next, Piece.whole, Nat.add_assoc] using hmore

end

/-! ## What parses is laid out -/

theorem WrittenIn.laidOut {script : Script} {front gap final : List Char} {pieces : List Piece}
    (h : WrittenIn script front gap pieces final) :
    LaidOut (front ++ (gap ++ (pieces.flatMap Piece.whole ++ '\x7d' :: final))) script
      (Piece.spans (front.length + gap.length) pieces) where
  statements := by
    have hstands := h.proper.stands rfl final
    rw [← h.statements_eq, List.length_append, List.append_assoc] at hstands
    exact hstands
  row := by
    refine ⟨front.length, front.length + gap.length + (pieces.flatMap Piece.whole).length, ?_,
      h.proper.inRow h.isGap _, final, h.isFinalGap, ?_⟩
    · rw [List.take_left]
      exact h.renders_front
    · rw [← List.drop_drop, ← List.drop_drop, List.drop_left, List.drop_left, List.drop_left]

theorem Renders.exists_spans {script : Script} {cs : List Char} (h : Renders script cs) :
    ∃ spans, LaidOut cs script spans := by
  obtain ⟨front, gap, pieces, final, hwritten, rfl⟩ := h.exists_pieces
  exact ⟨_, hwritten.laidOut⟩

/-- **Where statements stand.** The script that a text parses to is laid out in the text. Each
statement has a position and a content that are those of its span, and it is terminated exactly if a
semicolon is the first thing behind the span that no gap covers. From the brace that opens the
service to the one that closes it there is nothing but the spans, in the order of the statements,
the semicolons of terminated statements, and gaps. -/
theorem exists_spans_of_parse {text : String} {script : Script} (h : parse text = .ok script) :
    ∃ spans, LaidOut text.toList script spans :=
  (renders_of_parse h).exists_spans

theorem exists_spans_of_two_returns :
    let text := "service s \x7b\n  return  a // one\n  ; return b \x7d"
    ∃ script, parse text = .ok script ∧ ∃ spans, LaidOut text.toList script spans := by
  intro text
  have hparses : (parse text).toBool = true := by decide +kernel
  cases hparse : parse text with
  | ok script => exact ⟨script, rfl, exists_spans_of_parse hparse⟩
  | error error =>
    rw [hparse] at hparses
    cases hparses

end ScriptForge.Script

import ClassDiagram.Proofs.Latest
import ClassDiagram.Proofs.Text
import Mathlib.Data.String.Basic

/-! What a reader skips can stand anywhere. A piece that says nothing, which is a blank line, a
directive, a note or a comment, however long, brings a session back to where it was, also inside a
body or behind a head that still awaits its brace. -/

namespace ClassDiagram.Markup

open Text

variable {line : List Char}

/-- The lines of one piece that says nothing about the model. The first line of a note or a comment
decides whether more lines belong to it; what these hold does not matter. -/
inductive Silent : List (List Char) → Prop where
  | blank {line : List Char} (empty : trim line = []) : Silent [line]
  | directive {line : List Char} (starts : isDirective (trim line) = true) : Silent [line]
  | lineNote {line : List Char} (opens : opensNote (trim line) = true)
      (whole : isWholeNote (trim line) = true) : Silent [line]
  | lineComment {line : List Char} (opens : opensComment (trim line) = true)
      (closes : closesComment (trim line) = true)
      (long : 3 < (String.ofList (trim line)).utf8ByteSize) : Silent [line]
  | note {first last : List Char} {inner : List (List Char)}
      (opens : opensNote (trim first) = true) (open_end : isWholeNote (trim first) = false)
      (hidden : ∀ line ∈ inner, trim line ≠ "end note".toList)
      (closes : trim last = "end note".toList) : Silent (first :: inner ++ [last])
  | comment {first last : List Char} {inner : List (List Char)}
      (opens : opensComment (trim first) = true)
      (open_end : ¬ (closesComment (trim first) = true ∧
        3 < (String.ofList (trim first)).utf8ByteSize))
      (hidden : ∀ line ∈ inner, closesComment (trim line) = false)
      (closes : closesComment (trim last) = true) : Silent (first :: inner ++ [last])

/-! ### First lines of notes and comments -/

theorem opensNote_head (h : opensNote line = true) : ∃ c ∈ ['n', 'f'], ∃ t, line = c :: t := by
  obtain ⟨opening, hopening, hafter⟩ := List.any_eq_true.1 h
  cases hrest : after? opening.toList line with
  | none => simp [hrest] at hafter
  | some rest =>
    have hline := eq_of_after? hrest
    simp only [List.mem_cons, List.not_mem_nil, or_false] at hopening
    rcases hopening with rfl | rfl
    · exact ⟨'n', by simp, _, hline⟩
    · exact ⟨'f', by simp, _, hline⟩

theorem opensComment_head (h : opensComment line = true) : ∃ t, line = '/' :: '\'' :: t := by
  obtain ⟨t, ht⟩ := startsWith_iff.1 h
  exact ⟨t, ht.symm⟩

/-- A line that opens a comment closes it, too, when the marks at its ends do not overlap, as they
do in `/'/` alone. -/
theorem isWholeComment_iff (h : opensComment line = true) :
    isWholeComment line = true ↔
      closesComment line = true ∧ 3 < (String.ofList line).utf8ByteSize := by
  obtain ⟨t, rfl⟩ := opensComment_head h
  rw [isWholeComment, Bool.and_eq_true, decide_eq_true_eq, and_comm]
  refine and_congr_right fun hcloses => ?_
  rw [String.utf8ByteSize_ofList]
  match t with
  | [] => simp [closesComment, endsWith, startsWith, after?] at hcloses
  | [c] =>
    obtain rfl : '/' = c := by simpa [closesComment, endsWith, startsWith, after?] using hcloses
    decide
  | c :: d :: t =>
    have hc := c.utf8Size_pos
    have hd := d.utf8Size_pos
    have hslash : Char.utf8Size '/' = 1 := rfl
    have hquote : Char.utf8Size '\'' = 1 := rfl
    simp only [List.length_cons, String.utf8Len_cons]
    omega

namespace Session

variable {s : Session}

/-! ### Lines that are skipped -/

theorem step_of_open (h : s.mode.saved? = none) (line : List Char) :
    s.step line = s.readLine (trim line) := by
  obtain ⟨model, mode, package⟩ := s
  cases mode with
  | note r => simp [Mode.saved?] at h
  | comment r => simp [Mode.saved?] at h
  | _ => rfl

theorem readLine_comment (h : opensComment line = true) : s.readLine line =
    if isWholeComment line then s else { s with mode := .comment s.mode } := by
  have hskip : line ≠ [] ∧ isDirective line = false := by
    obtain ⟨t, rfl⟩ := opensComment_head h
    exact ⟨List.cons_ne_nil _ _, rfl⟩
  simp [readLine, hskip, h]

theorem readLine_note (h : opensNote line = true) : s.readLine line =
    if isWholeNote line then s else { s with mode := .note s.mode } := by
  have hskip : line ≠ [] ∧ isDirective line = false ∧ opensComment line = false := by
    obtain ⟨c, hc, t, rfl⟩ := opensNote_head h
    simp only [List.mem_cons, List.not_mem_nil, or_false] at hc
    rcases hc with rfl | rfl <;> exact ⟨List.cons_ne_nil _ _, rfl, rfl⟩
  simp [readLine, hskip, h]

theorem step_note {r : Mode} (hmode : s.mode = .note r) (line : List Char) :
    s.step line = if closesNote (trim line) then { s with mode := r } else s := by
  rw [step, hmode]

theorem step_comment {r : Mode} (hmode : s.mode = .comment r) (line : List Char) :
    s.step line = if closesComment (trim line) then { s with mode := r } else s := by
  rw [step, hmode]

theorem run_of_step {lines : List (List Char)} (h : ∀ line ∈ lines, s.step line = s) :
    s.run lines = s := by
  induction lines with
  | nil => rfl
  | cons line lines ih =>
    obtain ⟨hline, hlines⟩ := List.forall_mem_cons.1 h
    rw [run_cons, hline, ih hlines]

theorem run_note {r : Mode} {inner : List (List Char)} (hmode : s.mode = .note r)
    (h : ∀ line ∈ inner, trim line ≠ "end note".toList) : s.run inner = s := by
  refine run_of_step fun line hline => ?_
  have hopen : closesNote (trim line) = false := decide_eq_false (h line hline)
  rw [step_note hmode, hopen]
  rfl

theorem run_comment {r : Mode} {inner : List (List Char)} (hmode : s.mode = .comment r)
    (h : ∀ line ∈ inner, closesComment (trim line) = false) : s.run inner = s := by
  refine run_of_step fun line hline => ?_
  rw [step_comment hmode, h line hline]
  rfl

/-- A piece that says nothing leaves a session as it is, unless the session is in a note or a
comment already, which the piece may end instead. -/
theorem run_silent {piece : List (List Char)} (hs : s.mode.saved? = none) (h : Silent piece) :
    s.run piece = s := by
  cases h with
  | blank empty =>
    rw [run_cons, run_nil, step_of_open hs, empty]
    rfl
  | @directive line starts =>
    have hskip : (trim line = [] || isDirective (trim line)) = true := by rw [starts, Bool.or_true]
    rw [run_cons, run_nil, step_of_open hs, readLine, if_pos hskip]
  | lineNote opens whole =>
    rw [run_cons, run_nil, step_of_open hs, readLine_note opens, if_pos whole]
  | lineComment opens closes long =>
    have hwhole := (isWholeComment_iff opens).2 ⟨closes, long⟩
    rw [run_cons, run_nil, step_of_open hs, readLine_comment opens, if_pos hwhole]
  | @note first last inner opens open_end hidden closes =>
    have hfirst : s.step first = { s with mode := .note s.mode } := by
      rw [step_of_open hs, readLine_note opens, open_end]
      rfl
    have hlast : closesNote (trim last) = true := decide_eq_true closes
    rw [List.cons_append, run_cons, hfirst, run_append, run_note rfl hidden, run_cons, run_nil,
      step_note rfl, if_pos hlast]
  | @comment first last inner opens open_end hidden closes =>
    have hopen := mt (isWholeComment_iff opens).1 open_end
    have hfirst : s.step first = { s with mode := .comment s.mode } := by
      rw [step_of_open hs, readLine_comment opens, if_neg hopen]
    rw [List.cons_append, run_cons, hfirst, run_append, run_comment rfl hidden, run_cons, run_nil,
      step_comment rfl, if_pos closes]

theorem run_flatten_silent {pieces : List (List (List Char))} (hs : s.mode.saved? = none)
    (h : ∀ piece ∈ pieces, Silent piece) : s.run pieces.flatten = s := by
  induction pieces with
  | nil => rfl
  | cons piece pieces ih =>
    obtain ⟨hpiece, hpieces⟩ := List.forall_mem_cons.1 h
    rw [List.flatten_cons, run_append, run_silent hs hpiece, ih hpieces]

end Session

/-- Two texts that differ only in pieces that say nothing have the same model, wherever these pieces
stand between two lines, save inside a note or a comment. -/
theorem parse_silent {text longer : String} {front back : List (List Char)}
    {pieces : List (List (List Char))} (htext : lines text.toList = front ++ back)
    (hlonger : lines longer.toList = front ++ pieces.flatten ++ back)
    (hmode : (Session.start.run front).mode.saved? = none)
    (hpieces : ∀ piece ∈ pieces, Silent piece) : parse longer = parse text := by
  have hfront : Session.start.run (front ++ pieces.flatten) = Session.start.run front := by
    rw [Session.run_append, Session.run_flatten_silent hmode hpieces]
  rw [parse, parse, sessionAfter, sessionAfter, htext, hlonger, Session.run_append, hfront,
    ← Session.run_append]

/-- One piece of each kind, some with lines that would say something elsewhere. -/
def remarks : List (List (List Char)) :=
  [["  ".toList], ["skinparam class \x7b".toList], ["note right of A : a".toList],
    ["/' b '/".toList],
    "note left".toList :: ["class C \x7b".toList, "/'".toList] ++ [" end note".toList],
    "/'/".toList :: ["\x7d".toList, "A --> C".toList] ++ ["end '/".toList]]

/-- A package with a class whose head awaits its brace, and what follows. -/
def unfinished : List (List Char) := ["package p \x7b".toList, "class A".toList]

def remainder : List (List Char) :=
  ["\x7b".toList, "x : Int".toList, "\x7d".toList, "\x7d".toList]

theorem remarks_silent : ∀ piece ∈ remarks, Silent piece := by
  simp only [remarks, List.forall_mem_cons, List.not_mem_nil, false_imp_iff, implies_true, and_true]
  refine ⟨.blank ?_, .directive ?_, .lineNote ?_ ?_, .lineComment ?_ ?_ ?_, .note ?_ ?_ ?_ ?_,
    .comment ?_ ?_ ?_ ?_⟩
  all_goals decide

theorem parse_silent_remarks :
    (Session.start.run unfinished).mode = .declared ⟨.classes, 0⟩ ∧
    (∀ piece ∈ remarks, Silent piece) ∧
    parse (String.ofList (unlines (unfinished ++ remarks.flatten ++ remainder))) =
      parse (String.ofList (unlines (unfinished ++ remainder))) := by
  have hmode : (Session.start.run unfinished).mode = .declared ⟨.classes, 0⟩ := by decide
  have hopen : (Session.start.run unfinished).mode.saved? = none := by rw [hmode]; rfl
  have hshort : lines (String.ofList (unlines (unfinished ++ remainder))).toList =
      unfinished ++ remainder := by
    rw [String.toList_ofList, lines_unlines (by decide)]
  have hlong : lines (String.ofList (unlines (unfinished ++ remarks.flatten ++ remainder))).toList =
      unfinished ++ remarks.flatten ++ remainder := by
    rw [String.toList_ofList, lines_unlines (by decide)]
  exact ⟨hmode, remarks_silent, parse_silent hshort hlong hopen remarks_silent⟩

end ClassDiagram.Markup

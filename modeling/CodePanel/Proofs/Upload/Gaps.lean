import CodePanel.Proofs.Lexical.Bytes
import CodePanel.Proofs.Upload.Lines

namespace CodePanel.Upload

open CodePanel.Source

-- Blank lines in a row, or none.
@[ext]
structure Gap where
  lines : List (List Char)
  blank : ∀ line ∈ lines, isBlankLine line = true

abbrev WrittenLine := { line : List Char // isBlankLine line = false }

-- The gap in front of the first written line, and every written line with the gap behind it.
@[ext]
structure Layout where
  first : Gap
  rest : List (WrittenLine × Gap)

namespace Gap

def empty : Gap where
  lines := []
  blank := by simp

def put (gap : Gap) (line : List Char) (h : isBlankLine line = true) : Gap where
  lines := line :: gap.lines
  blank := List.forall_mem_cons.mpr ⟨h, gap.blank⟩

def append (front back : Gap) : Gap where
  lines := front.lines ++ back.lines
  blank := List.forall_mem_append.mpr ⟨front.blank, back.blank⟩

theorem blank_squeezeRun (gap : Gap) : ∀ line ∈ squeezeRun gap.lines, isBlankLine line = true := by
  rcases squeezeRun_cases gap.blank with hrun | ⟨line, hline, hrun⟩
  · simp [hrun]
  · simpa [hrun] using hline

def squeeze (gap : Gap) : Gap where
  lines := squeezeRun gap.lines
  blank := gap.blank_squeezeRun

theorem length_squeeze (gap : Gap) : gap.squeeze.lines.length ≤ 1 := by
  change (squeezeRun gap.lines).length ≤ 1
  rcases squeezeRun_cases gap.blank with hrun | ⟨line, _, hrun⟩
  · simp [hrun]
  · simp [hrun]

theorem squeeze_of_length {gap : Gap} (h : gap.lines.length ≤ 1) : gap.squeeze = gap := by
  obtain ⟨lines, blank⟩ := gap
  match lines with
  | [] => rfl
  | [line] => rfl
  | _ :: _ :: _ => simp at h

end Gap

namespace Layout

def lines (layout : Layout) : List (List Char) :=
  layout.first.lines ++ layout.rest.flatMap fun block => block.1.val :: block.2.lines

-- The lines that are not blank, in order.
def written (layout : Layout) : List (List Char) :=
  layout.rest.map (·.1.val)

-- The gaps before, between and behind the written lines, in order.
def gaps (layout : Layout) : List (List (List Char)) :=
  layout.first.lines :: layout.rest.map (·.2.lines)

def of : List (List Char) → Layout
  | [] => ⟨.empty, []⟩
  | line :: rest =>
    if h : isBlankLine line = true then ⟨(of rest).first.put line h, (of rest).rest⟩
    else ⟨.empty, (⟨line, eq_false_of_ne_true h⟩, (of rest).first) :: (of rest).rest⟩

-- Every gap squeezed by itself.
def squeeze (layout : Layout) : Layout where
  first := layout.first.squeeze
  rest := layout.rest.map fun block => (block.1, block.2.squeeze)

theorem lines_cons (first : Gap) (line : WrittenLine) (gap : Gap)
    (rest : List (WrittenLine × Gap)) :
    lines ⟨first, (line, gap) :: rest⟩ = first.lines ++ line.val :: lines ⟨gap, rest⟩ := rfl

-- A layout has all lines of the text it was made for.
theorem lines_of (list : List (List Char)) : (of list).lines = list := by
  induction list with
  | nil => rfl
  | cons line rest ih =>
    rw [of]
    split
    · exact congrArg (line :: ·) ih
    · exact congrArg (line :: ·) ih

theorem of_append (gap : Gap) (list : List (List Char)) :
    of (gap.lines ++ list) = ⟨gap.append (of list).first, (of list).rest⟩ := by
  obtain ⟨front, blank⟩ := gap
  induction front with
  | nil => rfl
  | cons line front ih =>
    obtain ⟨hline, hfront⟩ := List.forall_mem_cons.mp blank
    rw [List.cons_append, of, dif_pos hline, ih hfront]
    rfl

-- There is no other layout with the same lines.
theorem of_lines (layout : Layout) : of layout.lines = layout := by
  obtain ⟨first, rest⟩ := layout
  induction rest generalizing first with
  | nil =>
    have hlines : lines ⟨first, []⟩ = first.lines ++ [] := rfl
    rw [hlines, of_append]
    refine Layout.ext (Gap.ext ?_) rfl
    exact List.append_nil first.lines
  | cons block rest ih =>
    obtain ⟨line, gap⟩ := block
    have hline : ¬isBlankLine line.val = true := by simp [line.property]
    rw [lines_cons, of_append, of, dif_neg hline, ih gap]
    refine Layout.ext (Gap.ext ?_) rfl
    exact List.append_nil first.lines

theorem squeeze_squeeze (layout : Layout) : layout.squeeze.squeeze = layout.squeeze := by
  have hgap : ∀ gap : Gap, gap.squeeze.squeeze = gap.squeeze :=
    fun gap => Gap.squeeze_of_length gap.length_squeeze
  simp [squeeze, hgap]

theorem length_le_of_mem_gaps_squeeze {layout : Layout} {gap : List (List Char)}
    (h : gap ∈ layout.squeeze.gaps) : gap.length ≤ 1 := by
  rcases List.mem_cons.mp h with rfl | h
  · exact layout.first.length_squeeze
  · obtain ⟨block, hblock, rfl⟩ := List.mem_map.mp h
    obtain ⟨original, _, rfl⟩ := List.mem_map.mp hblock
    exact original.2.length_squeeze

-- In short gaps no blank line follows another.
theorem isChain_lines_of_length {layout : Layout} (h : ∀ gap ∈ layout.gaps, gap.length ≤ 1) :
    layout.lines.IsChain fun line next => ¬(isBlankLine line = true ∧ isBlankLine next = true) := by
  obtain ⟨first, rest⟩ := layout
  induction rest generalizing first with
  | nil =>
    have hfirst : first.lines.length ≤ 1 := h first.lines (by simp [gaps])
    have hlines : lines ⟨first, []⟩ = first.lines := List.append_nil first.lines
    rw [hlines]
    match first.lines, hfirst with
    | [], _ => exact List.IsChain.nil
    | [line], _ => exact List.IsChain.singleton line
  | cons block rest ih =>
    obtain ⟨line, gap⟩ := block
    have hfirst : first.lines.length ≤ 1 := h first.lines (by simp [gaps])
    have hmore := ih gap fun other hother => h other (List.mem_cons_of_mem _ hother)
    have hbehind : (line.val :: lines ⟨gap, rest⟩).IsChain
        fun line next => ¬(isBlankLine line = true ∧ isBlankLine next = true) :=
      List.isChain_cons.mpr ⟨fun _ _ hblank => by simp [line.property] at hblank, hmore⟩
    rw [lines_cons]
    match first.lines, hfirst with
    | [], _ => exact hbehind
    | [before], _ =>
      refine List.isChain_cons.mpr ⟨fun next hnext hblank => ?_, hbehind⟩
      cases hnext
      simp [line.property] at hblank

end Layout

-- Blank lines are held back until the next line that is not blank.
theorem squeezeFrom_append (run : List (List Char)) (gap : Gap) (list : List (List Char)) :
    squeezeFrom run (gap.lines ++ list) = squeezeFrom (run ++ gap.lines) list := by
  obtain ⟨front, blank⟩ := gap
  induction front generalizing run with
  | nil => simp
  | cons line front ih =>
    obtain ⟨hline, hfront⟩ := List.forall_mem_cons.mp blank
    have hmore := ih (run ++ [line]) hfront
    rw [List.append_assoc, List.singleton_append] at hmore
    rw [List.cons_append, squeezeFrom, if_pos hline, hmore]

theorem squeezeFrom_flatMap (run : List (List Char)) (rest : List (WrittenLine × Gap)) :
    squeezeFrom run (rest.flatMap fun block => block.1.val :: block.2.lines) =
      squeezeRun run ++ rest.flatMap fun block => block.1.val :: squeezeRun block.2.lines := by
  induction rest generalizing run with
  | nil => simp [squeezeFrom]
  | cons block rest ih =>
    have hline : ¬isBlankLine block.1.val = true := by simp [block.1.property]
    rw [List.flatMap_cons, List.flatMap_cons, List.cons_append, squeezeFrom, if_neg hline,
      squeezeFrom_append, List.nil_append, ih, List.cons_append]

-- The loop over the lines works on every gap by itself.
theorem squeezeLines_lines (layout : Layout) :
    squeezeLines layout.lines = layout.squeeze.lines := by
  rw [squeezeLines, Layout.lines, squeezeFrom_append, List.nil_append, squeezeFrom_flatMap,
    Layout.lines, Layout.squeeze, List.flatMap_map]
  rfl

theorem squeezeLines_eq (list : List (List Char)) :
    squeezeLines list = (Layout.of list).squeeze.lines := by
  rw [← squeezeLines_lines, Layout.lines_of]

-- A line that ends in `\n` and has no other.
def IsTerminated (line : List Char) : Prop :=
  ∃ front, '\n' ∉ front ∧ line = front ++ ['\n']

theorem IsTerminated.cut {line : List Char} (h : IsTerminated line) {list : List (List Char)}
    (hlist : Cut list) : Cut (line :: list) := by
  obtain ⟨front, hfront, rfl⟩ := h
  exact .cons hfront hlist

theorem cut_squeezeRun_append {run list : List (List Char)} (hrun : ∀ line ∈ run, IsTerminated line)
    (hlist : Cut list) : Cut (squeezeRun run ++ list) := by
  match run with
  | [] => exact hlist
  | [line] => exact (hrun line (by simp)).cut hlist
  | line :: _ :: _ =>
    have hreturn : IsTerminated ['\r', '\n'] := ⟨['\r'], by decide, rfl⟩
    have hplain : IsTerminated ['\n'] := ⟨[], by decide, rfl⟩
    rw [squeezeRun]
    split
    · exact hreturn.cut hlist
    · exact hplain.cut hlist

-- What is put out is still cut into lines: only the last line of all may be without its `\n`, and
-- that line is not blank.
theorem cut_squeezeFrom {run list : List (List Char)} (hrun : ∀ line ∈ run, IsTerminated line)
    (hlist : Cut list) : Cut (squeezeFrom run list) := by
  induction hlist generalizing run with
  | nil =>
    have hcut := cut_squeezeRun_append hrun .nil
    rwa [List.append_nil] at hcut
  | @last line hne hline =>
    have hwritten : ¬isBlankLine line = true := by
      intro hblank
      obtain ⟨front, rfl⟩ := endsWith_iff.mp (isBlankLine_iff.mp hblank).1
      simp at hline
    rw [squeezeFrom, if_neg hwritten]
    exact cut_squeezeRun_append hrun (.last hne hline)
  | @cons front rest hfront hrest ih =>
    rw [squeezeFrom]
    split
    · refine ih (List.forall_mem_append.mpr ⟨hrun, fun line hline => ?_⟩)
      exact ⟨front, hfront, List.mem_singleton.mp hline⟩
    · exact cut_squeezeRun_append hrun (.cons hfront (ih (by simp)))

-- Cutting the collapsed text gives the squeezed lines again.
theorem lines_collapseBlankLines (text : List Char) :
    lines (collapseBlankLines text) = squeezeLines (lines text) :=
  (cut_squeezeFrom (by simp) (cut_lines text)).lines_flatten

theorem of_lines_collapseBlankLines (text : List Char) :
    Layout.of (lines (collapseBlankLines text)) = (Layout.of (lines text)).squeeze := by
  rw [lines_collapseBlankLines, squeezeLines_eq, Layout.of_lines]

theorem sublist_squeezeRun {run : List (List Char)} (h : ∀ line ∈ run, isBlankLine line = true) :
    (squeezeRun run).flatten.Sublist run.flatten := by
  match run with
  | [] => exact List.Sublist.refl _
  | [line] => exact List.Sublist.refl _
  | line :: next :: more =>
    have hends := (isBlankLine_iff.mp (h line (by simp))).1
    have hpart : ∀ {part : List Char}, endsWith part line = true →
        part.Sublist (line :: next :: more).flatten := by
      intro part hpart
      obtain ⟨front, rfl⟩ := endsWith_iff.mp hpart
      exact (List.sublist_append_right front part).trans (List.sublist_append_left _ _)
    rw [squeezeRun, List.flatten_singleton]
    split
    · next hreturn => exact hpart hreturn
    · exact hpart hends

-- Collapsing leaves characters out and puts none in.
theorem sublist_squeezeFrom {run list : List (List Char)}
    (hrun : ∀ line ∈ run, isBlankLine line = true) :
    (squeezeFrom run list).flatten.Sublist (run.flatten ++ list.flatten) := by
  induction list generalizing run with
  | nil =>
    rw [squeezeFrom, List.flatten_nil, List.append_nil]
    exact sublist_squeezeRun hrun
  | cons line rest ih =>
    rw [squeezeFrom]
    split
    · next hblank =>
      have hheld : ∀ other ∈ run ++ [line], isBlankLine other = true :=
        List.forall_mem_append.mpr ⟨hrun, by simpa using hblank⟩
      have hmore := ih hheld
      rwa [List.flatten_append, List.flatten_singleton, List.append_assoc] at hmore
    · have hrest : (squeezeFrom [] rest).flatten.Sublist rest.flatten := ih (by simp)
      rw [List.flatten_append, List.flatten_cons, List.flatten_cons]
      exact (sublist_squeezeRun hrun).append (hrest.append_left line)

theorem sublist_collapseBlankLines (text : List Char) : (collapseBlankLines text).Sublist text := by
  have hsublist : (collapseBlankLines text).Sublist (lines text).flatten :=
    sublist_squeezeFrom (by simp)
  rwa [flatten_lines] at hsublist

theorem byteLength_le_of_sublist {part text : List Char} (h : part.Sublist text) :
    byteLength part ≤ byteLength text := by
  induction h with
  | slnil => exact Nat.le_refl _
  | cons c _ ih =>
    simp only [byteLength]
    omega
  | cons_cons c _ ih =>
    simp only [byteLength]
    omega

-- What becomes of a gap.
inductive Shrinks : List (List Char) → List (List Char) → Prop where
  | none : Shrinks [] []
  | single (line : List Char) : Shrinks [line] [line]
  | manyReturn {first : List Char} (next : List Char) (more : List (List Char))
      (h : ['\r', '\n'] <:+ first) : Shrinks (first :: next :: more) [['\r', '\n']]
  | manyPlain {first : List Char} (next : List Char) (more : List (List Char))
      (h : ¬['\r', '\n'] <:+ first) : Shrinks (first :: next :: more) [['\n']]

theorem shrinks_squeezeRun (run : List (List Char)) : Shrinks run (squeezeRun run) := by
  match run with
  | [] => exact .none
  | [line] => exact .single line
  | first :: next :: more =>
    have hsuffix : endsWith ['\r', '\n'] first = true ↔ ['\r', '\n'] <:+ first :=
      endsWith_iff.trans (exists_congr fun _ => eq_comm)
    rw [squeezeRun]
    split
    · next hreturn => exact .manyReturn next more (hsuffix.mp hreturn)
    · next hplain => exact .manyPlain next more (mt hsuffix.mpr hplain)

theorem shrinks_gaps_squeeze (layout : Layout) :
    List.Forall₂ Shrinks layout.gaps layout.squeeze.gaps := by
  refine .cons (shrinks_squeezeRun layout.first.lines) ?_
  rw [Layout.squeeze, List.map_map, List.forall₂_map_left_iff, List.forall₂_map_right_iff,
    List.forall₂_same]
  exact fun block _ => shrinks_squeezeRun block.2.lines

-- A text is cut into lines in one way only, and the lines have one layout.
theorem Layout.eq_of_cut {layout : Layout} (h : Cut layout.lines) :
    layout = of (Upload.lines layout.lines.flatten) := by
  rw [h.lines_flatten, of_lines]

-- Collapsing keeps every line that is not blank, letter by letter and in order, and every gap
-- shrinks. So no blank line follows another, the text gets no longer, and a second time there is
-- nothing left to do.
theorem blank_lines_collapsed (text : List Char) :
    ∃ before after : Layout,
      Cut before.lines ∧ before.lines.flatten = text ∧
      Cut after.lines ∧ after.lines.flatten = collapseBlankLines text ∧
      after.written = before.written ∧ List.Forall₂ Shrinks before.gaps after.gaps ∧
      (after.lines.IsChain
        fun line next => ¬(isBlankLine line = true ∧ isBlankLine next = true)) ∧
      (collapseBlankLines text).Sublist text ∧
      byteLength (collapseBlankLines text) ≤ byteLength text ∧
      collapseBlankLines (collapseBlankLines text) = collapseBlankLines text := by
  let before := Layout.of (lines text)
  let after := Layout.of (lines (collapseBlankLines text))
  have hafter : after = before.squeeze := of_lines_collapseBlankLines text
  have hbefore : before.lines = lines text := Layout.lines_of _
  have hlines : after.lines = lines (collapseBlankLines text) := Layout.lines_of _
  have hsublist := sublist_collapseBlankLines text
  refine ⟨before, after, hbefore ▸ cut_lines text, ?_, hlines ▸ cut_lines _, ?_, ?_, ?_, ?_,
    hsublist, byteLength_le_of_sublist hsublist, ?_⟩
  · rw [hbefore, flatten_lines]
  · rw [hlines, flatten_lines]
  · rw [hafter, Layout.written, Layout.squeeze, List.map_map]
    rfl
  · rw [hafter]
    exact shrinks_gaps_squeeze before
  · rw [hafter]
    exact Layout.isChain_lines_of_length fun _ => Layout.length_le_of_mem_gaps_squeeze
  · calc collapseBlankLines (collapseBlankLines text)
        = (squeezeLines after.lines).flatten := by rw [hlines]; rfl
      _ = after.squeeze.lines.flatten := by rw [squeezeLines_lines]
      _ = after.lines.flatten := by rw [hafter, Layout.squeeze_squeeze]
      _ = collapseBlankLines text := by rw [hlines, flatten_lines]

-- Gaps of three lines each with mixed endings, and a single blank line that stays.
def gappedText : List Char :=
  "\n\r\n\na\r\n \r\n\n\u3000\nb\n\t\nc".toList

theorem blank_lines_collapsed_mixed_endings :
    ∃ before after : Layout, before.lines.flatten = gappedText ∧
      after.lines.flatten = "\na\r\n\r\nb\n\t\nc".toList ∧
      before.gaps.map List.length = [3, 3, 1, 0] ∧
      List.Forall₂ Shrinks before.gaps after.gaps := by
  have hcollapsed : collapseBlankLines gappedText = "\na\r\n\r\nb\n\t\nc".toList := by
    decide
  obtain ⟨before, after, hcut, hbefore, -, hafter, -, hgaps, -⟩ := blank_lines_collapsed gappedText
  refine ⟨before, after, hbefore, hafter.trans hcollapsed, ?_, hgaps⟩
  rw [Layout.eq_of_cut hcut, hbefore]
  decide

end CodePanel.Upload

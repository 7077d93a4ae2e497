import CodePanel.Upload.Lines
import Mathlib.Data.List.Chain

namespace CodePanel.Upload

open CodePanel.Text

theorem endsWith_iff {part text : List Char} :
    endsWith part text = true ↔ ∃ front, text = front ++ part := by
  unfold endsWith
  rw [List.isPrefixOf_iff_prefix, List.reverse_prefix]
  constructor
  · rintro ⟨front, rfl⟩
    exact ⟨front, rfl⟩
  · rintro ⟨front, rfl⟩
    exact ⟨front, rfl⟩

theorem isBlankLine_iff {line : List Char} :
    isBlankLine line = true ↔ endsWith ['\n'] line = true ∧ isBlank line = true := by
  rw [isBlankLine, Bool.and_eq_true]

-- How a text is cut into lines: each is a row of characters with a `\n` behind them, and only the
-- last may be without it.
inductive Cut : List (List Char) → Prop where
  | nil : Cut []
  | last {line : List Char} (hne : line ≠ []) (hline : '\n' ∉ line) : Cut [line]
  | cons {front : List Char} {rest : List (List Char)} (hfront : '\n' ∉ front)
      (hrest : Cut rest) : Cut ((front ++ ['\n']) :: rest)

theorem lines_newline {front : List Char} (h : '\n' ∉ front) (rest : List Char) :
    lines (front ++ '\n' :: rest) = (front ++ ['\n']) :: lines rest := by
  induction front with
  | nil => rfl
  | cons c front ih =>
    obtain ⟨hc, hfront⟩ := not_or.mp fun hmem => h (List.mem_cons.mpr hmem)
    rw [List.cons_append, lines, if_neg (Ne.symm hc), ih hfront]
    rfl

theorem lines_of_not_mem {line : List Char} (hne : line ≠ []) (h : '\n' ∉ line) :
    lines line = [line] := by
  induction line with
  | nil => exact absurd rfl hne
  | cons c line ih =>
    obtain ⟨hc, hline⟩ := not_or.mp fun hmem => h (List.mem_cons.mpr hmem)
    rw [lines, if_neg (Ne.symm hc)]
    cases line with
    | nil => rfl
    | cons d line => rw [ih (by simp) hline]

theorem cut_lines (text : List Char) : Cut (lines text) := by
  induction text with
  | nil => exact .nil
  | cons c rest ih =>
    rw [lines]
    split
    · next hc =>
      have hcut : Cut (([] ++ ['\n']) :: lines rest) := .cons (by simp) ih
      rw [hc]
      exact hcut
    · next hc =>
      have hadd : ∀ {line : List Char}, '\n' ∉ line → '\n' ∉ c :: line := fun hline hmem =>
        (List.mem_cons.mp hmem).elim (fun heq => hc heq.symm) hline
      split
      · exact .last (by simp) (hadd (by simp))
      · next line more hlines =>
        rw [hlines] at ih
        cases ih with
        | last _ hline => exact .last (by simp) (hadd hline)
        | cons hfront hrest => exact .cons (hadd hfront) hrest

-- Lines that could have been cut are cut again when their text is.
theorem Cut.lines_flatten {list : List (List Char)} (h : Cut list) : lines list.flatten = list := by
  induction h with
  | nil => rfl
  | last hne hline => rw [List.flatten_singleton, lines_of_not_mem hne hline]
  | cons hfront _ ih =>
    rw [List.flatten_cons, List.append_assoc, List.singleton_append, lines_newline hfront, ih]

-- A line that another line follows has its `\n`.
theorem Cut.isChain {list : List (List Char)} (h : Cut list) :
    list.IsChain fun line _ => endsWith ['\n'] line = true := by
  induction h with
  | nil => exact List.IsChain.nil
  | last => exact List.IsChain.singleton _
  | cons _ _ ih => exact List.isChain_cons.mpr ⟨fun _ _ => endsWith_iff.mpr ⟨_, rfl⟩, ih⟩

-- Nothing or one blank line is left of a run of blank lines.
theorem squeezeRun_cases {run : List (List Char)} (h : ∀ line ∈ run, isBlankLine line = true) :
    squeezeRun run = [] ∨ ∃ line, isBlankLine line = true ∧ squeezeRun run = [line] := by
  match run with
  | [] => exact Or.inl rfl
  | [line] => exact Or.inr ⟨line, h line (by simp), rfl⟩
  | line :: _ :: _ =>
    refine Or.inr ⟨_, ?_, rfl⟩
    split <;> rfl

end CodePanel.Upload

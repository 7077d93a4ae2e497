import CodePanel.Overlay.Stage
import Mathlib.Data.List.Iterate

namespace CodePanel.Overlay

open Fit

-- The terms on which an overlay is mounted in a slot.
structure Lease where
  slot : Nat
  backdrops : List Nat
  adjustment : Adjustment
  options : Markup.Options

-- How often the overlay insets a surface: at every place of its list, if it has an inset at all.
def Lease.places (lease : Lease) (s : Nat) : Nat :=
  if lease.adjustment.inset != 0.0 then lease.backdrops.count s else 0

theorem Lease.places_of_not_mem {lease : Lease} {s : Nat} (h : s ∉ lease.backdrops) :
    lease.places s = 0 := by
  simp [Lease.places, List.count_eq_zero.mpr h]

def Surface.inset (inset : Float) (surface : Surface) : Surface :=
  surface.writePadding (surface.padding.widen inset)

-- The paddings that an overlay has saved of a surface, in the order in which they are put back.
def Mounted.savedOf (overlay : Mounted) (s : Nat) : List Padding :=
  ((overlay.backdrops.zip overlay.saved).filter (·.1 = s)).map (·.2)

theorem iterate_inset (inset : Float) (n : Nat) (surface : Surface) :
    (Surface.inset inset)^[n] surface = { surface with
      padding := (Padding.widen inset)^[n] surface.padding
      paddingWrites := surface.paddingWrites + n } := by
  induction n with
  | zero => rfl
  | succ n ih =>
    rw [Function.iterate_succ_apply', ih, Function.iterate_succ_apply']
    rfl

theorem iterate_writeHtml (html : String) (n : Nat) (surface : Surface) :
    (Surface.writeHtml html)^[n] surface = { surface with
      html := if n = 0 then surface.html else html
      htmlWrites := surface.htmlWrites + n } := by
  induction n with
  | zero => rfl
  | succ n ih =>
    rw [Function.iterate_succ_apply', ih]
    rfl

theorem iterate_writeScroll (scroll : Scroll) (n : Nat) (surface : Surface) :
    (Surface.writeScroll scroll)^[n] surface =
      { surface with scroll := if n = 0 then surface.scroll else scroll } := by
  induction n with
  | zero => rfl
  | succ n ih =>
    rw [Function.iterate_succ_apply', ih]
    rfl

theorem foldl_writePadding (paddings : List Padding) (surface : Surface) :
    paddings.foldl (fun surface padding => surface.writePadding padding) surface =
      { surface with
        padding := paddings.getLastD surface.padding
        paddingWrites := surface.paddingWrites + paddings.length } := by
  induction paddings generalizing surface with
  | nil => rfl
  | cons padding rest ih =>
    rw [List.foldl_cons, ih, List.getLastD_cons, List.length_cons, Nat.add_comm rest.length,
      ← Nat.add_assoc]
    rfl

namespace Board

variable (board : Board) (s : Nat)

theorem surfaces_modify (index : Nat) (change : Surface → Surface) :
    (board.modify index change).surfaces[s]? =
      board.surfaces[s]?.map fun surface => if index = s then change surface else surface :=
  List.getElem?_modify change index board.surfaces s

-- A change that is made of every target reaches a surface as often as it is listed.
theorem surfaces_foldl_modify (change : Surface → Surface) (targets : List Nat) :
    (targets.foldl (fun board target => board.modify target change) board).surfaces[s]? =
      board.surfaces[s]?.map change^[targets.count s] := by
  induction targets generalizing board with
  | nil => simp
  | cons target rest ih =>
    rw [List.foldl_cons, ih, surfaces_modify, Option.map_map]
    congr 1
    funext surface
    by_cases h : target = s
    · simp [h]
    · simp [h, List.count_cons_of_ne h]

theorem host_padding (index : Nat) : Host.padding index board = board.padding index :=
  rfl

theorem host_setPadding (index : Nat) (padding : Padding) :
    Host.setPadding index padding board = board.modify index (Surface.writePadding padding) :=
  rfl

-- Widening a padding that was just read is a change of the surface alone.
theorem setPadding_widen (inset : Float) (index : Nat) :
    Host.setPadding index ((Host.padding index board).widen inset) board =
      board.modify index (Surface.inset inset) := by
  have hsurfaces : (board.modify index
      (Surface.writePadding ((board.padding index).widen inset))).surfaces =
        (board.modify index (Surface.inset inset)).surfaces := by
    apply List.ext_getElem?
    intro i
    rw [surfaces_modify, surfaces_modify]
    by_cases h : index = i
    · subst h
      cases hsurface : board.surfaces[index]? with
      | none => rw [Option.map_none, Option.map_none]
      | some surface => simp [Board.padding, hsurface, Surface.inset]
    · simp [h]
  rw [host_padding, host_setPadding]
  exact congrArg Board.mk hsurfaces

theorem insetAll_eq (inset : Float) (backdrops : List Nat) :
    (insetAll inset backdrops board).2 =
      backdrops.foldl (fun board backdrop => board.modify backdrop (Surface.inset inset))
        board := by
  induction backdrops generalizing board with
  | nil => rfl
  | cons backdrop rest ih => rw [insetAll, setPadding_widen, ih, List.foldl_cons]

theorem saved_insetAll (inset : Float) (backdrops : List Nat) {surface : Surface}
    (h : board.surfaces[s]? = some surface) :
    ((backdrops.zip (insetAll inset backdrops board).1).filter (·.1 = s)).map (·.2) =
      List.iterate (Padding.widen inset) surface.padding (backdrops.count s) := by
  induction backdrops generalizing board surface with
  | nil => rfl
  | cons backdrop rest ih =>
    have hnext := board.surfaces_modify s backdrop (Surface.inset inset)
    rw [h, Option.map_some] at hnext
    rw [insetAll, setPadding_widen]
    simp only [List.zip_cons_cons]
    by_cases hb : backdrop = s
    · subst hb
      have hpadding : Host.padding backdrop board = surface.padding := by
        rw [host_padding, Board.padding, h]
      rw [if_pos rfl] at hnext
      simp only [List.filter_cons, decide_true, if_true, List.map_cons, ih _ hnext, hpadding,
        List.count_cons_self, List.iterate]
      rfl
    · rw [if_neg hb] at hnext
      simp only [List.filter_cons, hb, decide_false, Bool.false_eq_true, if_false, ih _ hnext,
        List.count_cons_of_ne hb]

end Board

section Operations

variable (board : Board) (overlay : Mounted) (lease : Lease) (s : Nat)

-- Mounting widens a surface once for every place, and writes its padding as often.
theorem surfaces_mount :
    (Mounted.mount lease.backdrops lease.adjustment lease.options board).2.surfaces[s]? =
      board.surfaces[s]?.map fun surface => { surface with
        padding := (Padding.widen lease.adjustment.inset)^[lease.places s] surface.padding
        paddingWrites := surface.paddingWrites + lease.places s } := by
  unfold Mounted.mount Lease.places
  split
  · simp only [board.insetAll_eq, board.surfaces_foldl_modify, ← iterate_inset]
  · simp

-- What is saved of a surface is what the overlay found at each of its places.
theorem savedOf_mount {surface : Surface} (h : board.surfaces[s]? = some surface) :
    (Mounted.mount lease.backdrops lease.adjustment lease.options board).1.savedOf s =
      List.iterate (Padding.widen lease.adjustment.inset) surface.padding (lease.places s) := by
  unfold Mounted.mount Mounted.savedOf Lease.places
  split
  · exact board.saved_insetAll s _ _ h
  · simp

-- Nothing is saved of a surface that is not inset.
theorem savedOf_eq_nil (h : lease.places s = 0) :
    (Mounted.mount lease.backdrops lease.adjustment lease.options board).1.savedOf s = [] := by
  unfold Mounted.mount Mounted.savedOf
  unfold Lease.places at h
  split at h
  · next hinset =>
    have hnot : s ∉ lease.backdrops := List.count_eq_zero.mp h
    simp only [hinset, if_true, List.map_eq_nil_iff, List.filter_eq_nil_iff, decide_eq_true_eq]
    intro entry hmem heq
    exact hnot (heq ▸ (List.of_mem_zip hmem).1)
  · next hinset => simp [hinset]

theorem surfaces_unmount :
    (overlay.unmount board).surfaces[s]? =
      board.surfaces[s]?.map fun surface => { surface with
        padding := (overlay.savedOf s).getLastD surface.padding
        paddingWrites := surface.paddingWrites + (overlay.savedOf s).length } := by
  have hfold : ∀ (entries : List (Nat × Padding)) (board : Board),
      (entries.foldl (fun board entry => Host.setPadding entry.1 entry.2 board)
        board).surfaces[s]? = board.surfaces[s]?.map fun surface =>
          ((entries.filter (·.1 = s)).map (·.2)).foldl
            (fun surface padding => surface.writePadding padding) surface := by
    intro entries
    induction entries with
    | nil => simp
    | cons entry rest ih =>
      intro board
      have hset : (Host.setPadding entry.1 entry.2 board).surfaces[s]? =
          board.surfaces[s]?.map fun surface =>
            if entry.1 = s then surface.writePadding entry.2 else surface :=
        board.surfaces_modify s entry.1 (Surface.writePadding entry.2)
      rw [List.foldl_cons, ih, hset, Option.map_map]
      congr 1
      funext surface
      by_cases h : entry.1 = s
      · simp [h]
      · simp [h]
  simp only [← foldl_writePadding]
  exact hfold _ board

theorem surfaces_input (text : String) :
    (overlay.input text board).surfaces[s]? =
      board.surfaces[s]?.map fun surface => { surface with
        html :=
          if s ∈ overlay.backdrops then Markup.highlight overlay.options text else surface.html
        htmlWrites := surface.htmlWrites + overlay.backdrops.count s } := by
  have hfold := board.surfaces_foldl_modify s
    (Surface.writeHtml (Markup.highlight overlay.options text)) overlay.backdrops
  refine hfold.trans ?_
  congr 1
  funext surface
  rw [iterate_writeHtml]
  simp only [List.count_eq_zero, ite_not]

theorem surfaces_syncScroll (scroll : Scroll) (targets : List Nat) :
    (syncScroll scroll targets board).surfaces[s]? =
      board.surfaces[s]?.map fun surface =>
        { surface with scroll := if s ∈ targets then scroll else surface.scroll } := by
  refine (board.surfaces_foldl_modify s (Surface.writeScroll scroll) targets).trans ?_
  congr 1
  funext surface
  rw [iterate_writeScroll]
  simp only [List.count_eq_zero, ite_not]

-- Giving the backdrops away is an unmounting like any other: what is left has nothing to put back.
theorem handBack_eq : overlay.handBack board = (overlay.backdrops, overlay.unmount board) :=
  rfl

end Operations

end CodePanel.Overlay

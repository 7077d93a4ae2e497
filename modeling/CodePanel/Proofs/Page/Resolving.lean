import CodePanel.Page.Mount
import CodePanel.Proofs.Settings.Faults
import Mathlib.Data.List.Nodup

namespace CodePanel

open Overlay

theorem Overlay.Settings.nodup_of_validate {settings : Settings} (h : settings.validate = .ok ()) :
    settings.backdropIds.Nodup := by
  obtain ⟨-, -, hrepeated, -, -⟩ := validate_eq_ok_iff.mp h
  exact (List.nodup_cons.1 (firstRepeated_eq_none_iff.mp hrepeated)).2

-- The fault of the settings themselves.
def Overlay.Settings.fault? (settings : Settings) : Option Error :=
  match settings.validate with
  | .error error => some (.settings error)
  | .ok () => none

namespace Page

-- The first element on the page with a given id.
def element? (page : Page) (id : String) : Option Element :=
  if id = "" then none else page.elements.find? fun e => e.id == id && !e.isRemoved

-- Why there is no element of a given id for a role.
def elementFault? (page : Page) (role : Role) (id : String) : Option Error :=
  match page.element? id with
  | none => some (.missingElement id)
  | some element =>
    if role.accepts element.kind then none else some (.wrongElement id role.name)

def documentFault? (page : Page) : Option Error :=
  if page.faults.noDocument then some (.browserCall "no document available") else none

-- The settings come first, then the page, the text field, and the backdrops from left to right.
def mountFault? (page : Page) (settings : Settings) : Option Error :=
  settings.fault?.or <| page.documentFault?.or <|
    (page.elementFault? .textArea settings.inputId).or <|
      settings.backdropIds.findSome? (page.elementFault? .htmlElement)

variable {page : Page}

theorem element_eq (page : Page) (id : String) :
    page.element? id = (page.find? id).bind fun n => page.elements[n]? := by
  unfold element? find?
  split
  · rfl
  · exact List.find?_eq_bind_findIdx?_getElem?

theorem id_of_find {id : String} {n : Nat} (h : page.find? id = some n) :
    ∃ element, page.elements[n]? = some element ∧ element.id = id := by
  unfold find? at h
  split at h
  · cases h
  · obtain ⟨hn, hfound, _⟩ := List.findIdx?_eq_some_iff_getElem.1 h
    exact ⟨_, List.getElem?_eq_getElem hn, eq_of_beq (Bool.and_eq_true_iff.1 hfound).1⟩

theorem lt_of_find {id : String} {n : Nat} (h : page.find? id = some n) :
    n < page.elements.length := by
  obtain ⟨_, helement, _⟩ := id_of_find h
  exact (List.getElem?_eq_some_iff.1 helement).1

theorem find_inj {id other : String} {n : Nat} (h : page.find? id = some n)
    (hother : page.find? other = some n) : id = other := by
  obtain ⟨_, helement, rfl⟩ := id_of_find h
  obtain ⟨_, hsame, rfl⟩ := id_of_find hother
  rw [helement] at hsame
  cases hsame
  rfl

-- A look-up fails with the fault of its element, and otherwise finds it.
theorem lookup_eq (page : Page) (role : Role) (id : String) :
    (∃ error, page.elementFault? role id = some error ∧ page.lookup role id = .error error) ∨
      ∃ n, page.elementFault? role id = none ∧ page.lookup role id = .ok n ∧
        page.find? id = some n := by
  unfold elementFault? lookup
  rw [element_eq]
  cases hfind : page.find? id with
  | none => exact .inl ⟨_, rfl, rfl⟩
  | some n =>
    obtain ⟨element, helement, _⟩ := id_of_find hfind
    simp only [Option.bind_some, helement, Option.map_some, Option.getD_some]
    by_cases haccepts : role.accepts element.kind
    · exact .inr ⟨n, if_pos haccepts, if_pos haccepts, rfl⟩
    · exact .inl ⟨_, if_neg haccepts, if_neg haccepts⟩

theorem lookupAll_eq (page : Page) (role : Role) (ids : List String) :
    (∃ error, ids.findSome? (page.elementFault? role) = some error ∧
        page.lookupAll role ids = .error error) ∨
      ∃ numbers, ids.findSome? (page.elementFault? role) = none ∧
        page.lookupAll role ids = .ok numbers ∧ ids.map page.find? = numbers.map some := by
  induction ids with
  | nil => exact .inr ⟨[], rfl, rfl, rfl⟩
  | cons id rest ih =>
    rw [List.findSome?_cons, lookupAll]
    rcases page.lookup_eq role id with ⟨error, hfault, hlookup⟩ | ⟨n, hfault, hlookup, hfind⟩
    · rw [hfault, hlookup]
      exact .inl ⟨error, rfl, rfl⟩
    · rw [hfault, hlookup]
      rcases ih with ⟨error, hrest, hlater⟩ | ⟨numbers, hrest, hlater, hnumbers⟩
      · rw [hlater]
        exact .inl ⟨error, hrest, rfl⟩
      · rw [hlater]
        refine .inr ⟨n :: numbers, hrest, rfl, ?_⟩
        rw [List.map_cons, List.map_cons, hfind, hnumbers]

-- Different ids are those of different elements.
theorem nodup_of_find {ids : List String} {numbers : List Nat} (hids : ids.Nodup)
    (h : ids.map page.find? = numbers.map some) : numbers.Nodup := by
  apply List.Nodup.of_map some
  rw [← h]
  refine List.Nodup.map_on (fun id hid other _ hsame => ?_) hids
  have hmem : page.find? id ∈ numbers.map some := h ▸ List.mem_map_of_mem hid
  obtain ⟨n, _, hn⟩ := List.mem_map.1 hmem
  exact find_inj hn.symm (hsame.symm.trans hn.symm)

theorem resolve_eq (page : Page) (settings : Settings) :
    (∃ error, page.mountFault? settings = some error ∧ page.resolve settings = .error error) ∨
      ∃ input backdrops, page.mountFault? settings = none ∧
        page.resolve settings = .ok (input, backdrops) ∧
        page.find? settings.inputId = some input ∧
        settings.backdropIds.map page.find? = backdrops.map some ∧ backdrops.Nodup := by
  unfold mountFault? Settings.fault? documentFault? resolve document
  cases hvalid : settings.validate with
  | error error => exact .inl ⟨_, rfl, rfl⟩
  | ok checked =>
    cases page.faults.noDocument with
    | true => exact .inl ⟨_, rfl, rfl⟩
    | false =>
      simp only [Option.none_or, Bool.false_eq_true, if_false]
      rcases page.lookup_eq .textArea settings.inputId with
        ⟨error, hfault, hlookup⟩ | ⟨input, hfault, hlookup, hinput⟩
      · rw [hfault, hlookup]
        exact .inl ⟨error, rfl, rfl⟩
      · rw [hfault, hlookup]
        rcases page.lookupAll_eq .htmlElement settings.backdropIds with
          ⟨error, hrest, hall⟩ | ⟨backdrops, hrest, hall, hbackdrops⟩
        · rw [hall]
          exact .inl ⟨error, hrest, rfl⟩
        · rw [hall]
          exact .inr ⟨input, backdrops, hrest, rfl, hinput, hbackdrops,
            nodup_of_find (settings.nodup_of_validate hvalid) hbackdrops⟩

example : ({ elements := [
    { id := "code", kind := .textArea }, { id := "highlights", kind := .plain },
    { id := "highlights_text", kind := .foreign }] } : Page).mountFault? {} =
      some (.wrongElement "highlights_text" "HTML element") := rfl

end Page

end CodePanel

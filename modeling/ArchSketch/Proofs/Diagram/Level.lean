import ArchSketch.Proofs.Diagram.Repair
import ArchSketch.Tools.Server

/-! The level of a text, told by the names that are called in it. In a normalized source neither the
library includes nor the styling nor the closing marker call an element, so the level of the whole
is that of the body, to which the includes belong, unless the title calls elements as well. -/
namespace ArchSketch.Diagram

open Text

variable {name t u l : List Char} {names : List (List Char)} {level : Level} {inWord : Bool}

/-! The level that names give. -/

theorem levelOf?_getD (names : List (List Char)) : (levelOf? names).getD .context =
    if names.any (isElementOf .component) then .component
    else if names.any (isElementOf .container) then .container else .context := by
  simp only [levelOf?, List.find?_cons, List.find?_nil]
  cases names.any (isElementOf .component) with
  | true => rfl
  | false =>
    cases names.any (isElementOf .container) with
    | true => rfl
    | false => cases names.any (isElementOf .context) <;> rfl

theorem any_isElementOf_calls : (calls t).any (isElementOf level) = true ↔
    ∃ name ∈ elements level, IsCalledIn name.toList t := by
  rw [List.any_eq_true]
  constructor
  · rintro ⟨name, hname, helement⟩
    obtain ⟨element, hmem, rfl⟩ := List.mem_map.1 (Spelling.isElementOf_iff.1 helement)
    exact ⟨element, hmem, mem_calls_iff.1 hname⟩
  · rintro ⟨element, helement, hcalled⟩
    exact ⟨element.toList, mem_calls_iff.2 hcalled,
      Spelling.isElementOf_iff.2 (List.mem_map_of_mem helement)⟩

/-! Calls in the lines of a normalized source. -/

/-- A call that begins in the first line of the text; its bracket may stand in a later one. -/
def IsCalledInTitle (name t : List Char) : Prop :=
  ∃ before after, t = before ++ name ++ after ∧ '\n' ∉ before ∧ IsCall before name after

theorem IsCalledInTitle.isCalledIn (h : IsCalledInTitle name t) : IsCalledIn name t := by
  obtain ⟨before, after, ht, -, hcall⟩ := h
  exact ⟨before, after, ht, hcall⟩

theorem isCalledIn_append_newline (hl : '\n' ∉ l) : IsCalledIn name (l ++ '\n' :: u) ↔
    IsCalledInTitle name (l ++ '\n' :: u) ∨ IsCalledIn name u := by
  constructor
  · rintro ⟨before, after, ht, hcall⟩
    by_cases hbefore : '\n' ∈ before
    · right
      obtain ⟨first, before, rfl, hfirst⟩ := List.eq_append_cons_of_mem hbefore
      have hlines : lines u = lines (before ++ name ++ after) := by
        have := congrArg lines ht
        simp only [List.append_assoc, List.cons_append, lines_append_cons hl,
          lines_append_cons hfirst, List.cons.injEq] at this
        simpa using this.2
      refine ⟨before, after, ?_, hcall.isWord, fun c hc => hcall.first c ?_, hcall.last,
        hcall.bracket⟩
      · rw [← unlines_lines u, hlines, unlines_lines]
      · rw [Option.mem_def] at hc ⊢
        rw [List.getLast?_append, List.getLast?_cons, hc]
        rfl
    · exact .inl ⟨before, after, ht, hbefore, hcall⟩
  · rintro (h | h)
    · exact h.isCalledIn
    · exact mem_calls_iff.1 (mem_callsFrom_append_newline (mem_calls_iff.2 h) false l)

theorem isCalledIn_append (hu : '(' ∉ u) : IsCalledIn name (t ++ u) ↔ IsCalledIn name t := by
  constructor
  · rintro ⟨before, after, ht, hcall⟩
    obtain ⟨gap, rest, rfl, hgap⟩ := hcall.bracket
    have hbracket : ∃ rest', t = before ++ name ++ (gap ++ '(' :: rest') := by
      have hsplit : t ++ u = (before ++ name ++ gap ++ ['(']) ++ rest := by simp [ht]
      rcases List.append_eq_append_iff.1 hsplit with ⟨v, hv, hu'⟩ | ⟨v, hv, -⟩
      · rcases v.eq_nil_or_concat with rfl | ⟨v, c, rfl⟩
        · exact ⟨[], by simpa using hv.symm⟩
        · have hc : '(' = c := by
            simpa using congrArg List.getLast? hv
          subst hc
          exact absurd (by simp [hu']) hu
      · exact ⟨v, by simpa using hv⟩
    obtain ⟨rest', rfl⟩ := hbracket
    refine ⟨before, gap ++ '(' :: rest', rfl, hcall.isWord, hcall.first, ?_, gap, rest', rfl, hgap⟩
    have := hcall.last
    cases gap <;> simpa using this
  · exact fun h => mem_calls_iff.1 (mem_callsFrom_append (mem_calls_iff.2 h) u)

/-- A library include calls nothing, and its last character ends every call. -/
theorem calls_unlines_includes (level : Option Level) (ls : List (List Char)) :
    calls (unlines (includes level ++ ls)) = calls (unlines ls) := by
  have hquiet : ∀ l ∈ includes level, l = l.dropLast ++ ['>'] ∧ calls l = [] := by
    rcases level with _ | _ | _ | _ <;> decide
  revert hquiet
  generalize includes level = front
  intro hquiet
  induction front with
  | nil => rfl
  | cons l front ih =>
    obtain ⟨⟨hl, hcalls⟩, hquiet⟩ := List.forall_mem_cons.1 hquiet
    rw [List.cons_append, hl, calls_unlines_cons (by decide) (by decide), ← hl, hcalls, ih hquiet]
    rfl

namespace Document

variable {d : Document}

theorem any_isElementOf_lines (level : Level) (d : Document) :
    (calls (unlines (includes (level? d.text) ++ d.styling ++ d.body ++ [closingMarker]))).any
        (isElementOf level) = (calls d.text).any (isElementOf level) := by
  have hclosing : (calls (unlines (d.body ++ [closingMarker]))).any (isElementOf level) =
      (calls d.text).any (isElementOf level) := by
    rw [Bool.eq_iff_iff, any_isElementOf_calls, any_isElementOf_calls, text]
    by_cases hbody : d.body = []
    · rw [hbody]
      simp only [← mem_calls_iff]
      rfl
    · rw [unlines_concat hbody]
      simp only [isCalledIn_append (show '(' ∉ '\n' :: closingMarker by decide)]
  rw [List.append_assoc, List.append_assoc, calls_unlines_includes]
  by_cases hs : hasStyling d.text
  · rw [show d.styling = [] from if_pos hs, List.nil_append, hclosing]
  · rw [show d.styling = defaultStyling from if_neg hs, any_isElementOf_unlines_defaultStyling,
      hclosing]

theorem IsTidy.any_isElementOf_render (h : d.IsTidy) (level : Level) :
    (calls d.render).any (isElementOf level) = true ↔
      (∃ name ∈ elements level, IsCalledInTitle name.toList d.render) ∨
        (calls d.text).any (isElementOf level) = true := by
  have hrender : d.render = d.heading ++ '\n' ::
      unlines (includes (level? d.text) ++ d.styling ++ d.body ++ [closingMarker]) := by
    rw [render, List.cons_append, List.cons_append, List.cons_append, unlines_cons (by simp)]
  rw [← any_isElementOf_lines level d, any_isElementOf_calls, any_isElementOf_calls, hrender]
  simp only [isCalledIn_append_newline h.newline_not_mem_heading, and_or_left, exists_or]

theorem IsTidy.libraryInclude_mem_lines (h : d.IsTidy) (level : Level) :
    (libraryInclude level).toList ∈ lines d.render ↔
      ∃ l, level.depth ≤ l.depth ∧ (calls d.text).any (isElementOf l) = true := by
  have hlibrary : IsLibraryLine (libraryInclude level).toList := by cases level <;> decide
  have hmem : (libraryInclude level).toList ∈ lines d.render ↔
      ∃ l, level? d.text = some l ∧ level.depth ≤ l.depth := by
    have hfilter : (libraryInclude level).toList ∈ d.outline ↔
        (libraryInclude level).toList ∈ includes (level? d.text) := by
      rw [← h.filter_isLibraryLine_outline, List.mem_filter, decide_eq_true hlibrary]
      simp
    rw [h.lines_render, hfilter]
    cases level? d.text with
    | none => simp [includes]
    | some l => cases l <;> cases level <;> decide
  rw [hmem, level?_eq]
  constructor
  · rintro ⟨l, hl, hdepth⟩
    exact ⟨l, hdepth, by simpa using List.find?_some hl⟩
  · rintro ⟨l, hdepth, hany⟩
    obtain ⟨name, hname, helement⟩ := List.any_eq_true.1 hany
    obtain ⟨deepest, hdeepest, hl⟩ := exists_levelOf?_of_mem hname helement
    exact ⟨deepest, hdeepest, hdepth.trans hl⟩

theorem IsTidy.componentInclude_mem_lines (h : d.IsTidy) :
    "!include <C4/C4_Component>".toList ∈ lines d.render ↔
      (calls d.text).any (isElementOf .component) = true := by
  refine (h.libraryInclude_mem_lines .component).trans ⟨?_, fun hany => ⟨_, le_rfl, hany⟩⟩
  rintro ⟨l, hdepth, hany⟩
  cases l with
  | component => exact hany
  | context | container => contradiction

theorem IsTidy.containerInclude_mem_lines (h : d.IsTidy) :
    "!include <C4/C4_Container>".toList ∈ lines d.render ↔
      (calls d.text).any (isElementOf .container) = true ∨
        (calls d.text).any (isElementOf .component) = true := by
  refine (h.libraryInclude_mem_lines .container).trans ⟨?_, ?_⟩
  · rintro ⟨l, hdepth, hany⟩
    cases l with
    | component => exact .inr hany
    | container => exact .inl hany
    | context => contradiction
  · rintro (hany | hany)
    · exact ⟨_, le_rfl, hany⟩
    · exact ⟨.component, by decide, hany⟩

end Document
end ArchSketch.Diagram

namespace ArchSketch

open Text Diagram

/-- The level of a text is the most detailed one that a call in it belongs to. -/
theorem inferLevel_eq_of_calls (source : String) : inferLevel source =
    if ∃ name ∈ elements .component, IsCalledIn name.toList source.toList then .component
    else if ∃ name ∈ elements .container, IsCalledIn name.toList source.toList then .container
    else .context := by
  rw [inferLevel, level?_eq, levelOf?_getD]
  simp only [any_isElementOf_calls]

example : inferLevel "MyComponent(a) C4_Component(b) ContainerDbX(c) Container_Ext\n\t(d)" =
    .container := by decide +kernel

structure ReportsIncludes (source : String) : Prop where
  component : inferLevel (normalize source) = .component ↔
    "!include <C4/C4_Component>".toList ∈ lines (normalize source).toList
  container : inferLevel (normalize source) = .container ↔
    "!include <C4/C4_Container>".toList ∈ lines (normalize source).toList ∧
      "!include <C4/C4_Component>".toList ∉ lines (normalize source).toList
  context : inferLevel (normalize source) = .context ↔
    "!include <C4/C4_Container>".toList ∉ lines (normalize source).toList ∧
      "!include <C4/C4_Component>".toList ∉ lines (normalize source).toList

def titledSource : String := "@startuml Component(a)\nPerson(a, \"A\")"

/-- The includes are chosen without the title, and the level is not. -/
theorem not_reportsIncludes_titledSource : ¬ ReportsIncludes titledSource := by
  intro h
  have hlevel : inferLevel (normalize titledSource) = .component := by decide +kernel
  have hinclude : "!include <C4/C4_Component>".toList ∉ lines (normalize titledSource).toList := by
    decide +kernel
  exact hinclude (h.component.1 hlevel)

/-- The level that is reported with a normalized source is the one that its includes stand for, or a
more detailed one of which something is called in the title. -/
theorem normalize_reports_level (source : String) :
    let out := normalize source
    let component := "!include <C4/C4_Component>".toList ∈ lines out.toList ∨
      ∃ name ∈ elements .component, IsCalledInTitle name.toList out.toList
    let container := "!include <C4/C4_Container>".toList ∈ lines out.toList ∨
      ∃ name ∈ elements .container, IsCalledInTitle name.toList out.toList
    ∃ level, Server.normalize source = .success (out ++ "\n\n' diagram type: " ++ level.name) ∧
      inferLevel out = level ∧ (level = .component ↔ component) ∧
      (level = .container ↔ container ∧ ¬ component) ∧
      (level = .context ↔ ¬ container ∧ ¬ component) := by
  intro out component container
  have htidy := Document.ofSource_isTidy source.toList
  have hout : out.toList = (Document.ofSource source.toList).render := String.toList_ofList
  have hlevel : inferLevel out = if (calls out.toList).any (isElementOf .component) then .component
      else if (calls out.toList).any (isElementOf .container) then .container else .context := by
    rw [inferLevel, level?_eq, levelOf?_getD]
  have hcomponent : (calls out.toList).any (isElementOf .component) = true ↔ component := by
    rw [hout, htidy.any_isElementOf_render, ← htidy.componentInclude_mem_lines, ← hout]
    exact or_comm
  have hcontainer (h : ¬ component) :
      (calls out.toList).any (isElementOf .container) = true ↔ container := by
    have hbody := (not_or.1 h).1
    rw [hout, htidy.componentInclude_mem_lines] at hbody
    have hinclude := htidy.containerInclude_mem_lines.trans (or_iff_left hbody)
    rw [hout, htidy.any_isElementOf_render, ← hinclude, ← hout]
    exact or_comm
  refine ⟨inferLevel out, rfl, rfl, ?_⟩
  clear_value component container
  rw [hlevel]
  by_cases hc : component
  · simp [hc, hcomponent.2 hc]
  · by_cases hd : container <;> simp [hc, hd, mt hcomponent.1 hc, hcontainer hc]

end ArchSketch

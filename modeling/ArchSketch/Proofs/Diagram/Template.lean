import ArchSketch.Diagram.Template
import ArchSketch.Proofs.Diagram.Level
import ArchSketch.Proofs.Text.Case
import ArchSketch.Proofs.Text.Replacement

/-! Starter diagrams. Whatever the name of a system is, its alias is the words of the name in lower
case with underscores between them. The templates have texts around their marks that neither a mark
nor a call of an element goes across, so filling one comes to putting the name and the alias in
piece by piece, and a starter diagram calls the elements of its template and those that the name
calls by itself. -/
namespace ArchSketch

namespace Level

theorem mem_all (l : Level) : l ∈ all := by cases l <;> decide

def deeper (a b : Level) : Level := if a.depth < b.depth then b else a

end Level

namespace Diagram

open Text

variable {name element old new : List Char} {c : Char} {p q : Piece} {t : Template} {l : Level}
  {inWord : Bool}

/-! Aliases. -/

theorem aliasOf_eq (name : List Char) :
    aliasOf name = List.intercalate ['_'] ((words name).map lower) := by
  have hfirst : ∀ c ∈ (lower (trim name)).head?, isBlank c = false := fun c hc =>
    not_isBlank_of_mem_head?_lower (fun c => not_isBlank_of_mem_head?_trim) hc
  have hlast : ∀ c ∈ (lower (trim name)).getLast?, isBlank c = false := fun c hc =>
    not_isBlank_of_mem_getLast?_lower (fun c => not_isBlank_of_mem_getLast?_trim) hc
  rw [aliasOf, replaceBlanks_of_edges hfirst hlast, words_lower, words_trim]

theorem of_mem_aliasOf (hc : c ∈ aliasOf name) : lowerChar c = [c] ∧ isBlank c = false := by
  rw [aliasOf_eq] at hc
  refine forall_mem_intercalate (P := fun c => lowerChar c = [c] ∧ isBlank c = false)
    (List.forall_mem_singleton.2 ⟨rfl, rfl⟩) ?_ c hc
  intro word hword d hd
  obtain ⟨word, hmem, rfl⟩ := List.mem_map.1 hword
  obtain ⟨e, he, hlow, hblank⟩ := exists_of_mem_lowerFrom hd
  exact ⟨hlow, hblank.trans (not_isBlank_of_mem_words hmem e he)⟩

theorem aliasOf_aliasOf (name : List Char) : aliasOf (aliasOf name) = aliasOf name := by
  by_cases hne : aliasOf name = []
  · rw [hne]
    rfl
  · have hwords : words (aliasOf name) = [aliasOf name] :=
      words_of_forall_not hne fun c hc => (of_mem_aliasOf hc).2
    rw [aliasOf_eq (aliasOf name), hwords, List.map_singleton, List.intercalate_singleton,
      lower_of_forall fun c hc => (of_mem_aliasOf hc).1]

theorem not_isUpper_of_mem_aliasOf (hc : c ∈ aliasOf name) : c.isUpper = false := by
  rw [← Bool.not_eq_true]
  intro hupper
  have hall : ∀ n < 91, 65 ≤ n → lowerChar (Char.ofNat n) ≠ [Char.ofNat n] := by decide
  obtain ⟨hlow, hhigh⟩ := toNat_of_isUpper hupper
  refine hall c.toNat (by omega) hlow ?_
  rw [Char.ofNat_toNat]
  exact (of_mem_aliasOf hc).1

/-! Templates, piece by piece. -/

def insertedName (name : List Char) : List Char := substitute aliasMark (aliasOf name) (trim name)

namespace Piece

def named (name : List Char) : Piece → List Char
  | text s => s.toList
  | systemName => trim name
  | systemAlias => aliasMark

def filled (name : List Char) : Piece → List Char
  | text s => s.toList
  | systemName => insertedName name
  | systemAlias => aliasOf name

def isText : Piece → Bool
  | text _ => true
  | _ => false

def isPlain : Piece → Bool
  | text s => !decide (nameMark <:+: s.toList) && !decide (aliasMark <:+: s.toList)
  | _ => true

def isOutsideMarks (c : Char) : Bool := !nameMark.contains c && !aliasMark.contains c

/-- A mark neither goes on from the first piece to the second nor comes about between them. -/
def parts : Piece → Piece → Bool
  | text s, _ => s.toList.getLast?.any isOutsideMarks
  | _, text s => s.toList.head?.any isOutsideMarks
  | _, _ => false

/-- Texts call the same elements when they begin in the middle of a word. -/
def isSteady : Piece → Bool
  | text s => Level.all.all fun l =>
    (callsFrom true s.toList).any (isElementOf l) == (calls s.toList).any (isElementOf l)
  | _ => true

/-- An element's name in the first piece finds no bracket in the second. The alias names no element
at all. -/
def meets : Piece → Piece → Bool
  | text s, systemName | text s, systemAlias => s.toList.getLast?.any (!isWord ·) &&
    Level.all.all fun l => !isElementOf l (lastWord s.toList)
  | systemName, text s =>
    s.toList.head?.any (!isWord ·) && (trimStart s.toList).head?.any (· != '(')
  | systemAlias, text _ => true
  | _, _ => false

def callsElement (l : Level) (inName : Bool) : Piece → Bool
  | text s => (calls s.toList).any (isElementOf l)
  | systemName => inName
  | systemAlias => false

end Piece

/-- A template of a level takes every name: what is put in stays apart from the texts around it, and
these call elements of the level, and of no more detailed one. -/
structure Template.IsSoundAt (kind : Level) (t : Template) : Prop where
  pieces : t.all (fun p => p.isPlain && p.isSteady) = true
  borders : t.IsChain fun p q => (p.parts q && p.meets q) = true
  container : ∀ inName, t.any (Piece.callsElement .container inName) =
    (decide (kind ≠ .context) || inName)
  component : ∀ inName, t.any (Piece.callsElement .component inName) =
    (decide (kind = .component) || inName)

set_option maxRecDepth 4000 in
theorem Template.isSoundAt_ofLevel (kind : Level) : (ofLevel kind).IsSoundAt kind := by
  -- long texts are evaluated as lists of characters
  have hcontext : context = [.text (String.ofList _), .systemName, .text (String.ofList _),
    .systemName, .text (String.ofList _), .systemAlias, .text (String.ofList _), .systemName,
    .text (String.ofList _), .systemName, .text (String.ofList _), .systemAlias,
    .text (String.ofList _), .systemAlias, .text (String.ofList _)] := rfl
  have hcontainer : container = [.text (String.ofList _), .systemName, .text (String.ofList _),
    .systemName, .text (String.ofList _), .systemAlias, .text (String.ofList _), .systemName,
    .text (String.ofList _), .systemName, .text (String.ofList _)] := rfl
  have hcomponent : component = [.text (String.ofList _), .systemName, .text (String.ofList _),
    .systemName, .text (String.ofList _), .systemAlias, .text (String.ofList _), .systemName,
    .text (String.ofList _), .systemName, .text (String.ofList _)] := rfl
  cases kind <;> simp only [ofLevel, hcontext, hcontainer, hcomponent] <;> constructor <;>
    simp only [List.all_cons, List.any_cons, List.isChain_cons_cons, Piece.isPlain, Piece.isSteady,
      Piece.parts, Piece.meets, Piece.callsElement, String.toList_ofList] <;>
    decide +kernel

/-! Filling a template piece by piece. -/

theorem Piece.isParted_of_parts (h : p.parts q = true) (hold : old = nameMark ∨ old = aliasMark)
    {f : Piece → List Char} (hf : ∀ s, f (.text s) = s.toList) : IsParted old (f p) (f q) := by
  have houtside (c : Char) (hc : isOutsideMarks c = true) : c ∉ old := by
    rcases hold with rfl | rfl <;> simp_all [isOutsideMarks]
  cases p with
  | text s =>
    left
    obtain ⟨c, hc, hmark⟩ := (Option.any_eq_true _ _).1 h
    exact ⟨c, hf s ▸ hc, houtside c hmark⟩
  | systemName | systemAlias =>
    right
    cases q with
    | text s =>
      obtain ⟨c, hc, hmark⟩ := (Option.any_eq_true _ _).1 h
      exact ⟨c, hf s ▸ hc, houtside c hmark⟩
    | systemName | systemAlias => contradiction

theorem Template.substitute_flatMap {kind : Level} (h : t.IsSoundAt kind)
    (hold : old = nameMark ∨ old = aliasMark) {f g : Piece → List Char}
    (hf : ∀ s, f (.text s) = s.toList) (hfg : ∀ p ∈ t, substitute old new (f p) = g p) :
    substitute old new (t.flatMap f) = t.flatMap g := by
  have hne : old ≠ [] := by
    rcases hold with rfl | rfl <;> decide
  have hchain : (t.map f).IsChain (IsParted old) := by
    refine (List.isChain_map f).2 (h.borders.imp fun p q hpq => ?_)
    rw [Bool.and_eq_true] at hpq
    exact Piece.isParted_of_parts hpq.1 hold hf
  rw [List.flatMap_def, List.flatMap_def, substitute_flatten hne hchain, List.map_map]
  exact congrArg List.flatten (List.map_congr_left hfg)

/-- Putting the name in first and the alias then, wherever their marks stand, comes to the same as
putting both in piece by piece, where the alias goes into the name as well. -/
theorem Template.fill_eq {kind : Level} (h : t.IsSoundAt kind) (name : List Char) :
    t.fill name = t.flatMap (Piece.filled name) := by
  have hplain (s : String) (hs : .text s ∈ t) :
      ¬ nameMark <:+: s.toList ∧ ¬ aliasMark <:+: s.toList := by
    have := List.all_eq_true.1 h.pieces _ hs
    simp only [Piece.isPlain, Bool.and_eq_true, Bool.not_eq_true', decide_eq_false_iff_not] at this
    exact this.1
  have hname : substitute nameMark (trim name) t.written = t.flatMap (Piece.named name) := by
    refine substitute_flatMap h (.inl rfl) (fun _ => rfl) fun p hp => ?_
    cases p with
    | text s => exact substitute_of_not_infix (hplain s hp).1
    | systemName => exact substitute_self (by decide)
    | systemAlias => exact substitute_of_not_infix (by decide)
  have halias : substitute aliasMark (aliasOf name) (t.flatMap (Piece.named name)) =
      t.flatMap (Piece.filled name) := by
    refine substitute_flatMap h (.inr rfl) (fun _ => rfl) fun p hp => ?_
    cases p with
    | text s => exact substitute_of_not_infix (hplain s hp).2
    | systemName => rfl
    | systemAlias => exact substitute_self (by decide)
  rw [fill, hname, halias]

/-! The calls of a filled template. -/

theorem isUpper_of_isElementOf (h : isElementOf l element = true) (hc : c ∈ element.head?) :
    c.isUpper = true := by
  have hall : ((elements l).map String.toList).all fun name =>
      name.head?.all Char.isUpper := by
    cases l <;> decide
  have := List.all_eq_true.1 hall element (Spelling.isElementOf_iff.1 h)
  rwa [hc] at this

theorem not_mem_aliasOf (h : isElementOf l element = true) :
    ∀ c ∈ element.head?, c ∉ aliasOf name := by
  intro c hc hmem
  have := not_isUpper_of_mem_aliasOf hmem
  simp [isUpper_of_isElementOf h hc] at this

theorem any_callsFrom_aliasOf (inWord : Bool) (name : List Char) :
    (callsFrom inWord (aliasOf name)).any (isElementOf l) = false := by
  rw [List.any_eq_false]
  intro element hcalled helement
  obtain ⟨before, after, halias, -, hword, -⟩ := mem_callsFrom_iff.1 hcalled
  obtain ⟨c, rest, rfl⟩ := List.exists_cons_of_ne_nil hword.1
  have hmem : c ∈ aliasOf name := by simp [halias]
  exact not_mem_aliasOf helement c rfl hmem

theorem opensBracket_append_of_head {s : List Char} (h : c ∈ (trimStart s).head?) (hc : c ≠ '(')
    (rest : List Char) : opensBracket (s ++ rest) = false := by
  obtain ⟨gap, hgap, hs⟩ := exists_eq_append_trimStart s
  obtain ⟨tail, htail⟩ := List.head?_eq_some_iff.1 h
  rw [hs, htail, List.append_assoc, opensBracket, trimStart_append_blanks _ hgap, List.cons_append,
    trimStart_cons_of_not_isBlank (not_isBlank_of_trimStart_eq_cons htail)]
  simpa using hc

theorem not_crosses_text {s : String} (h : (s.toList.getLast?.any (!isWord ·) &&
      Level.all.all fun l => !isElementOf l (lastWord s.toList)) = true)
    (helement : isElementOf l element = true) (v : List Char) :
    ¬ Crosses inWord element s.toList v := by
  intro hcross
  obtain ⟨hlast, hnone⟩ := Bool.and_eq_true_iff.1 h
  obtain ⟨c, hlast, hc⟩ := (Option.any_eq_true _ _).1 hlast
  obtain ⟨init, hs⟩ := List.getLast?_eq_some_iff.1 hlast
  rw [hs] at hcross hnone
  have hname := hcross.eq_lastWord (by simpa using hc)
  have := List.all_eq_true.1 hnone l (Level.mem_all l)
  simp [← hname, helement] at this

theorem Piece.not_crosses (h : p.meets q = true) (helement : isElementOf l element = true)
    (name rest : List Char) :
    ¬ Crosses inWord element (p.filled name) (q.filled name ++ rest) := by
  cases p with
  | text s =>
    cases q with
    | text => contradiction
    | systemName | systemAlias => exact not_crosses_text h helement _
  | systemName =>
    cases q with
    | text s =>
      obtain ⟨hfirst, hopens⟩ := Bool.and_eq_true_iff.1 h
      obtain ⟨c, hc, hword⟩ := (Option.any_eq_true _ _).1 hfirst
      obtain ⟨d, hd, hbracket⟩ := (Option.any_eq_true _ _).1 hopens
      refine not_crosses_of_head ?_ (opensBracket_append_of_head hd (by simpa using hbracket) rest)
      obtain ⟨tail, htail⟩ := List.head?_eq_some_iff.1 hc
      simpa [filled, htail] using hword
    | systemName | systemAlias => contradiction
  | systemAlias => exact not_crosses_of_not_mem (not_mem_aliasOf helement)

theorem any_callsFrom_append {u v : List Char}
    (h : ∀ element, isElementOf l element = true → ¬ Crosses inWord element u v) :
    (callsFrom inWord (u ++ v)).any (isElementOf l) =
      ((callsFrom inWord u).any (isElementOf l) ||
        (callsFrom (endsInWord inWord u) v).any (isElementOf l)) := by
  rw [Bool.eq_iff_iff, Bool.or_eq_true, List.any_eq_true, List.any_eq_true, List.any_eq_true,
    ← exists_or]
  refine exists_congr fun element => ?_
  rw [mem_callsFrom_append_iff, ← or_and_right]
  refine and_congr_left fun helement => ?_
  simp [h element helement]

theorem Piece.any_callsFrom_filled (h : p.isSteady = true)
    (hstart : p.isText = false → inWord = false) (name : List Char) :
    (callsFrom inWord (p.filled name)).any (isElementOf l) =
      (calls (p.filled name)).any (isElementOf l) := by
  cases p with
  | text s =>
    cases inWord with
    | false => rfl
    | true => exact beq_iff_eq.1 (List.all_eq_true.1 h l (Level.mem_all l))
  | systemName | systemAlias => rw [hstart rfl, calls]

theorem Piece.endsInWord_filled (h : p.meets q = true) (hq : q.isText = false) (name : List Char) :
    endsInWord inWord (p.filled name) = false := by
  have htext (s : String) (hs : s.toList.getLast?.any (!isWord ·) = true) :
      endsInWord inWord s.toList = false := by
    obtain ⟨c, hlast, hc⟩ := (Option.any_eq_true _ _).1 hs
    obtain ⟨init, hinit⟩ := List.getLast?_eq_some_iff.1 hlast
    simpa [hinit] using hc
  cases p with
  | text s =>
    cases q with
    | text => contradiction
    | systemName | systemAlias => exact htext s (Bool.and_eq_true_iff.1 h).1
  | systemName | systemAlias => cases q <;> contradiction

theorem any_callsFrom_flatMap (hsteady : ∀ r ∈ p :: t, r.isSteady = true)
    (hmeets : (p :: t).IsChain fun p q => p.meets q = true)
    (hstart : p.isText = false → inWord = false) (name : List Char) :
    (callsFrom inWord ((p :: t).flatMap (Piece.filled name))).any (isElementOf l) =
      (p :: t).any fun r => (calls (r.filled name)).any (isElementOf l) := by
  induction t generalizing p inWord with
  | nil =>
    have hp := List.forall_mem_singleton.1 hsteady
    simpa using Piece.any_callsFrom_filled hp hstart name
  | cons q t ih =>
    obtain ⟨hp, hrest⟩ := List.forall_mem_cons.1 hsteady
    obtain ⟨hpq, hchain⟩ := List.isChain_cons_cons.1 hmeets
    have hcross : ∀ element, isElementOf l element = true →
        ¬ Crosses inWord element (p.filled name) ((q :: t).flatMap (Piece.filled name)) :=
      fun element helement => Piece.not_crosses hpq helement name _
    rw [List.flatMap_cons, any_callsFrom_append hcross, Piece.any_callsFrom_filled hp hstart,
      ih hrest hchain fun hq => Piece.endsInWord_filled hpq hq name]
    rfl

theorem Template.any_calls_fill {kind : Level} (h : t.IsSoundAt kind) (name : List Char) :
    (calls (t.fill name)).any (isElementOf l) =
      t.any (Piece.callsElement l ((calls (insertedName name)).any (isElementOf l))) := by
  have hpieces : (fun r : Piece => (calls (r.filled name)).any (isElementOf l)) =
      Piece.callsElement l ((calls (insertedName name)).any (isElementOf l)) := by
    funext r
    cases r with
    | text | systemName => rfl
    | systemAlias => exact any_callsFrom_aliasOf false name
  rw [fill_eq h, ← hpieces]
  cases t with
  | nil => rfl
  | cons p t =>
    refine any_callsFrom_flatMap (fun r hr => ?_) (h.borders.imp fun p q hpq => ?_)
      (fun _ => rfl) name
    · exact (Bool.and_eq_true_iff.1 (List.all_eq_true.1 h.pieces r hr)).2
    · exact (Bool.and_eq_true_iff.1 hpq).2

theorem isCalledIn_trim (element t : List Char) :
    IsCalledIn element (trim t) ↔ IsCalledIn element t := by
  obtain ⟨v, w, hv, hw, ht⟩ := exists_eq_append_trim t
  have hbracket : '(' ∉ w := fun hmem => absurd (hw _ hmem) (by decide)
  conv => rhs; rw [ht]
  rw [isCalledIn_append hbracket, ← mem_calls_iff, ← mem_calls_iff, calls_blanks_append hv]

end Diagram

open Text Diagram

/-- An alias is the words of the name, each in lower case, with an underscore between them. So it
has no blanks, those of the name make no difference to it, and it is its own alias. -/
theorem systemAlias_eq_words (name : String) :
    (systemAlias name).toList = List.intercalate ['_'] ((words name.toList).map lower) ∧
      (∀ c ∈ (systemAlias name).toList, isBlank c = false) ∧
      (∀ other : String, words other.toList = words name.toList →
        systemAlias other = systemAlias name) ∧
      systemAlias (systemAlias name) = systemAlias name := by
  have halias (s : String) : (systemAlias s).toList = aliasOf s.toList := String.toList_ofList
  refine ⟨?_, fun c hc => ?_, fun other hwords => ?_, ?_⟩
  · rw [halias, aliasOf_eq]
  · rw [halias] at hc
    exact (of_mem_aliasOf hc).2
  · rw [systemAlias, systemAlias, aliasOf_eq, aliasOf_eq, hwords]
  · rw [systemAlias, halias, aliasOf_aliasOf, systemAlias]

/-- Each word has a final sigma of its own, and a dotted capital I becomes two characters. -/
theorem systemAlias_spacedName :
    systemAlias "\u2003ΣΟΦΟΣ\nİS\t " = systemAlias "ΣΟΦΟΣ İS" ∧
      systemAlias "ΣΟΦΟΣ İS" = "σοφος_i\u0307s" := by
  obtain ⟨-, -, hsame, -⟩ := systemAlias_eq_words "ΣΟΦΟΣ İS"
  exact ⟨hsame "\u2003ΣΟΦΟΣ\nİS\t " (by decide +kernel), by decide +kernel⟩

/-- A starter diagram has the level it was asked for, or that of the calls in its name when this is
more detailed. -/
theorem inferLevel_starterDiagram (kind : Level) (name : String) :
    inferLevel (starterDiagram kind name) =
        kind.deeper (inferLevel (String.ofList (insertedName name.toList))) ∧
      ((∀ level, ∀ element ∈ elements level, ¬ IsCalledIn element.toList name.toList) →
        ¬ aliasMark <:+: name.toList → inferLevel (starterDiagram kind name) = kind) := by
  have hsound := Template.isSoundAt_ofLevel kind
  have hlevel : inferLevel (starterDiagram kind name) =
      kind.deeper (inferLevel (String.ofList (insertedName name.toList))) := by
    have hcomponent := Template.any_calls_fill hsound (l := .component) name.toList
    have hcontainer := Template.any_calls_fill hsound (l := .container) name.toList
    rw [hsound.component] at hcomponent
    rw [hsound.container] at hcontainer
    rw [inferLevel, level?_eq, levelOf?_getD, inferLevel, level?_eq, levelOf?_getD,
      starterDiagram, String.toList_ofList, String.toList_ofList, hcomponent, hcontainer]
    cases kind <;> cases (calls (insertedName name.toList)).any (isElementOf .component) <;>
      cases (calls (insertedName name.toList)).any (isElementOf .container) <;> rfl
  refine ⟨hlevel, fun hnone hmark => ?_⟩
  obtain ⟨v, w, -, -, hname⟩ := exists_eq_append_trim name.toList
  have hinserted : insertedName name.toList = trim name.toList :=
    substitute_of_not_infix fun h => hmark (h.trans ⟨v, w, hname.symm⟩)
  have hquiet (l : Level) : (calls (trim name.toList)).any (isElementOf l) = false := by
    rw [← Bool.not_eq_true, any_isElementOf_calls]
    rintro ⟨element, helement, hcalled⟩
    exact hnone l element helement ((isCalledIn_trim _ _).1 hcalled)
  have hcontext : inferLevel (String.ofList (insertedName name.toList)) = .context := by
    rw [inferLevel, level?_eq, levelOf?_getD, hinserted, String.toList_ofList, hquiet, hquiet]
    rfl
  rw [hlevel, hcontext]
  cases kind <;> rfl

/-- The name ends in an element's name and begins with a bracket, but calls nothing. -/
theorem inferLevel_starterDiagram_bracketedName :
    (∀ level, ∀ element ∈ elements level,
      ¬ IsCalledIn element.toList "(systemAlias\x7d of a Component ".toList) ∧
      ¬ aliasMark <:+: "(systemAlias\x7d of a Component ".toList ∧
      inferLevel (starterDiagram .container "(systemAlias\x7d of a Component ") = .container := by
  have hcalls : ∀ level, ∀ element ∈ elements level,
      ¬ IsCalledIn element.toList "(systemAlias\x7d of a Component ".toList := by
    intro level
    cases level <;> decide +kernel
  have hmark : ¬ aliasMark <:+: "(systemAlias\x7d of a Component ".toList := by decide +kernel
  exact ⟨hcalls, hmark, (inferLevel_starterDiagram .container _).2 hcalls hmark⟩

end ArchSketch

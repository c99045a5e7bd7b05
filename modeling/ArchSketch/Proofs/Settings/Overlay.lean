import ArchSketch.Proofs.Settings.Storage

/-! Settings that are given in part. Whatever members an object holds, in any order and with foreign
ones among them, each is read as what it says, and the defaults are all that the others stand for.
Null is said too: it stands for no value, not for the default. An integer is read as itself or has
the whole text refused. -/
namespace ArchSketch

open Json Number

namespace Json

def Node.IsText (n : Node) (s : String) : Prop := n = .text (some s)

inductive Node.IsOptional {α : Type} (spells : Node → α → Prop) : Node → Option α → Prop
  | null : IsOptional spells .null none
  | value {n : Node} {a : α} : spells n a → IsOptional spells n (some a)

theorem Node.IsText.decode {n : Node} {s : String} (h : n.IsText s) : Decoder.string n = .ok s := by
  rw [h]
  rfl

theorem Node.IsOptional.decode {α : Type} {spells : Node → α → Prop} {n : Node} {a? : Option α}
    (h : n.IsOptional spells a?) {d : Decoder α} (hnull : ∀ a, ¬ spells .null a)
    (hd : ∀ a, spells n a → d n = .ok a) : d.optional n = .ok a? := by
  cases h with
  | null => rfl
  | @value _ a ha =>
    have hne : n ≠ .null := by
      rintro rfl
      exact hnull a ha
    rw [d.optional_of_ne_null hne, hd a ha]
    rfl

end Json

namespace AiSettings

def Field.Spells : (f : Field) → Node → record.Value f → Prop
  | .provider | .apiKey | .model => Node.IsText
  | .baseUrl => Node.IsOptional Node.IsText
  | .temperature => Node.IsOptional fun n x => ∃ num, n = .number num ∧ num.toSingle? = some x
  | .maxTokens => Node.IsOptional fun n w => n = .number (.ofInt w.toNat)
  | .timeoutSecs => fun n w => n = .number (.ofInt w.toNat)

theorem Field.Spells.decode {f : Field} {n : Node} {v : record.Value f} (h : f.Spells n v) :
    record.decode f n = .ok v := by
  cases f with
  | provider | apiKey | model => exact Node.IsText.decode h
  | baseUrl =>
    exact Node.IsOptional.decode h (fun _ => Node.noConfusion) fun _ => Node.IsText.decode
  | temperature =>
    refine Node.IsOptional.decode h ?_ ?_
    · rintro x ⟨num, hnum, -⟩
      cases hnum
    · rintro x ⟨num, rfl, hnum⟩
      simp only [Decoder.single, hnum]
  | maxTokens =>
    refine Node.IsOptional.decode h (fun _ => Node.noConfusion) ?_
    rintro w rfl
    exact Decoder.word32_ofInt.2 rfl
  | timeoutSecs =>
    obtain rfl : n = _ := h
    exact Decoder.word64_ofInt.2 rfl

/-- The settings with what is given in place of what they have. -/
def overlay (ai : AiSettings) (given : record.Draft) : AiSettings where
  provider := (given .provider).getD ai.provider
  apiKey := (given .apiKey).getD ai.apiKey
  model := (given .model).getD ai.model
  baseUrl := (given .baseUrl).getD ai.baseUrl
  temperature := (given .temperature).getD ai.temperature
  maxTokens := (given .maxTokens).getD ai.maxTokens
  timeoutSecs := (given .timeoutSecs).getD ai.timeoutSecs

theorem decode_spelled {n : Node} {given : record.Draft} (h : record.Spells Field.Spells n given) :
    decode n = .ok (default.overlay given) := by
  have hread : record.read n = .ok fun f => ((given f).map id).getD (default.fieldValue f) :=
    h.read field?_name (by decide) (fun _ _ _ => Field.Spells.decode)
      fun f => by cases f <;> rfl
  unfold decode
  simp only [hread, Option.map_id]
  rfl

theorem decode_field {ms : List (Key × Node)} {open? : Option Flaw} {ai : AiSettings}
    (h : decode (.object ms open?) = .ok ai) {f : Field} {n : Node}
    (hn : (.name (record.name f), n) ∈ ms) : record.decode f n = .ok (ai.fieldValue f) := by
  obtain ⟨v, hv, hai⟩ := bind_eq_ok.1 h
  obtain rfl := Except.ok.inj hai
  have hf := Record.decode_of_readMembers hv (field?_name f) hn
  cases f <;> exact hf

end AiSettings

namespace BackendSettings

inductive Spells : Node → BackendSettings → Prop
  | search : Spells (.object [(.name "kind", .text (some "command"))] none) (.command none)
  | command {ms : List (Key × Node)} {n : Node} {program : Option String} :
    n.IsOptional Node.IsText program →
      ms.Perm [(.name "kind", .text (some "command")), (.name "program", n)] →
        Spells (.object ms none) (.command program)
  | server {ms : List (Key × Node)} {url : String} :
    ms.Perm [(.name "kind", .text (some "server")), (.name "url", .text (some url))] →
      Spells (.object ms none) (.server url)

theorem Spells.decode {n : Node} {b : BackendSettings} (h : Spells n b) : decode n = .ok b := by
  cases h with
  | search => rfl
  | command hprogram hperm =>
    cases hprogram with
    | null => rcases List.perm_pair.1 hperm with rfl | rfl <;> rfl
    | value htext =>
      obtain rfl := htext
      rcases List.perm_pair.1 hperm with rfl | rfl <;> rfl
  | server hperm => rcases List.perm_pair.1 hperm with rfl | rfl <;> rfl

end BackendSettings

namespace RenderSettings

def Field.Spells : (f : Field) → Node → record.Value f → Prop
  | .outputDir => Node.IsText
  | .format => fun n f => n = .text (some f.name)
  | .backend => BackendSettings.Spells

theorem Field.Spells.decode {f : Field} {n : Node} {v : record.Value f} (h : f.Spells n v) :
    record.decode f n = .ok v := by
  cases f with
  | outputDir => exact Node.IsText.decode h
  | format =>
    obtain rfl : n = _ := h
    exact ImageFormat.decode_name v
  | backend => exact BackendSettings.Spells.decode h

def overlay (r : RenderSettings) (given : record.Draft) : RenderSettings where
  outputDir := (given .outputDir).getD r.outputDir
  format := (given .format).getD r.format
  backend := (given .backend).getD r.backend

theorem decode_spelled {n : Node} {given : record.Draft} (h : record.Spells Field.Spells n given) :
    decode n = .ok (default.overlay given) := by
  have hread : record.read n = .ok fun f => ((given f).map id).getD (default.fieldValue f) :=
    h.read field?_name (by decide) (fun _ _ _ => Field.Spells.decode)
      fun f => by cases f <;> rfl
  unfold decode
  simp only [hread, Option.map_id]
  rfl

end RenderSettings

namespace Settings

abbrev Part : Field → Type
  | .ai => AiSettings.record.Draft
  | .render => RenderSettings.record.Draft

def Field.Spells : (f : Field) → Node → Part f → Prop
  | .ai => AiSettings.record.Spells AiSettings.Field.Spells
  | .render => RenderSettings.record.Spells RenderSettings.Field.Spells

def overlay (s : Settings) (given : (f : Field) → Option (Part f)) : Settings where
  ai := ((given .ai).map s.ai.overlay).getD s.ai
  render := ((given .render).map s.render.overlay).getD s.render

theorem decode_spelled {n : Node} {given : (f : Field) → Option (Part f)}
    (h : record.Spells Field.Spells n given) : decode n = .ok (default.overlay given) := by
  let value : (f : Field) → Part f → record.Value f
    | .ai => AiSettings.default.overlay
    | .render => RenderSettings.default.overlay
  have hvalue (f : Field) (n : Node) (v : Part f) (hv : f.Spells n v) :
      record.decode f n = .ok (value f v) := by
    cases f with
    | ai => exact AiSettings.decode_spelled hv
    | render => exact RenderSettings.decode_spelled hv
  have hread : record.read n = .ok fun f => ((given f).map (value f)).getD (default.fieldValue f) :=
    h.read field?_name (by decide) hvalue fun f => by cases f <;> rfl
  unfold decode
  rw [hread]
  rfl

theorem decode_ai {top : List (Key × Node)} {open? : Option Flaw} {s : Settings}
    (h : decode (.object top open?) = .ok s) {n : Node} (hn : (.name "ai", n) ∈ top) :
    AiSettings.decode n = .ok s.ai := by
  obtain ⟨v, hv, hs⟩ := bind_eq_ok.1 h
  obtain rfl := Except.ok.inj hs
  exact Record.decode_of_readMembers hv (f := .ai) rfl hn

section

variable {text : String} {top ms : List (Key × Node)} {open? openAi? : Option Flaw}
  (htree : (Node.object top open?).IsTreeOf text) (hai : (.name "ai", .object ms openAi?) ∈ top)
  {s : Settings} (hs : parse text = .ok s)

include htree hai hs

theorem decode_field {f : AiSettings.Field} {n : Node}
    (hn : (.name (AiSettings.record.name f), n) ∈ ms) :
    AiSettings.record.decode f n = .ok (s.ai.fieldValue f) :=
  AiSettings.decode_field (decode_ai ((htree.run decode).symm.trans hs) hai) hn

theorem maxTokens_of_parse {z : ℤ} (hz : (.name "maxTokens", .number (.ofInt z)) ∈ ms) :
    ∃ tokens, s.ai.maxTokens = some tokens ∧ (tokens.toNat : ℤ) = z := by
  have hdecode := decode_field htree hai hs (f := .maxTokens) hz
  obtain ⟨tokens, htokens, hsome⟩ := map_eq_ok.1 hdecode
  exact ⟨tokens, hsome.symm, Decoder.word32_ofInt.1 htokens⟩

theorem timeoutSecs_of_parse {z : ℤ} (hz : (.name "timeoutSecs", .number (.ofInt z)) ∈ ms) :
    (s.ai.timeoutSecs.toNat : ℤ) = z :=
  Decoder.word64_ofInt.1 (decode_field htree hai hs (f := .timeoutSecs) hz)

end

/-- Settings that are given in part are read as the defaults with what is given in their place,
whatever its order and whatever foreign members join it. In any text that is read, a null is no
value, and an integer is kept as it is; a text with one that is out of range is refused. -/
theorem parse_overlay (text : String) :
    (∀ n given, n.IsTreeOf text → record.Spells Field.Spells n given →
      parse text = .ok (default.overlay given)) ∧
    ∀ top open? ms openAi?, (Node.object top open?).IsTreeOf text →
      (.name "ai", .object ms openAi?) ∈ top →
        (∀ s, parse text = .ok s →
          ((.name "baseUrl", .null) ∈ ms → s.ai.baseUrl = none) ∧
          ((.name "temperature", .null) ∈ ms → s.ai.temperature = none) ∧
          ((.name "maxTokens", .null) ∈ ms → s.ai.maxTokens = none) ∧
          (∀ z, (.name "maxTokens", .number (.ofInt z)) ∈ ms →
            ∃ tokens, s.ai.maxTokens = some tokens ∧ (tokens.toNat : ℤ) = z) ∧
          ∀ z, (.name "timeoutSecs", .number (.ofInt z)) ∈ ms →
            (s.ai.timeoutSecs.toNat : ℤ) = z) ∧
        (∀ z, (.name "maxTokens", .number (.ofInt z)) ∈ ms → z < 0 ∨ 2 ^ 32 ≤ z →
          ∃ e, parse text = .error e) ∧
        ∀ z, (.name "timeoutSecs", .number (.ofInt z)) ∈ ms → z < 0 ∨ 2 ^ 64 ≤ z →
          ∃ e, parse text = .error e := by
  constructor
  · intro n given htree hgiven
    exact (htree.run decode).trans (decode_spelled hgiven)
  · intro top open? ms openAi? htree hai
    refine ⟨fun s hs => ⟨fun hnull => ?_, fun hnull => ?_, fun hnull => ?_,
      fun z => maxTokens_of_parse htree hai hs, fun z => timeoutSecs_of_parse htree hai hs⟩,
      fun z hz hout => ?_, fun z hz hout => ?_⟩
    · exact (Except.ok.inj (decode_field htree hai hs (f := .baseUrl) hnull)).symm
    · exact (Except.ok.inj (decode_field htree hai hs (f := .temperature) hnull)).symm
    · exact (Except.ok.inj (decode_field htree hai hs (f := .maxTokens) hnull)).symm
    · apply exists_eq_error
      intro s hs
      obtain ⟨tokens, -, rfl⟩ := maxTokens_of_parse htree hai hs hz
      have := tokens.toNat_lt
      omega
    · apply exists_eq_error
      intro s hs
      have := timeoutSecs_of_parse htree hai hs hz
      have := s.ai.timeoutSecs.toNat_lt
      omega

def aiBackwards (tokens : ℤ) : Value :=
  .object [("colour", .object []), ("timeoutSecs", .number (.ofInt (2 ^ 64 - 1))),
    ("maxTokens", .number (.ofInt tokens)), ("temperature", .null)]

def renderBackwards : Value :=
  .object [("colour", .bool true),
    ("backend", .object [("url", .text "http://uml:8080"), ("kind", .text "server")]),
    ("format", .text "pdf")]

def backwards (tokens : ℤ) : Value :=
  .object [("colour", .null), ("render", renderBackwards), ("ai", aiBackwards tokens)]

def givenBackwards : (f : Field) → Option (Part f)
  | .ai => some fun
    | .temperature => some none
    | .maxTokens => some (some 4294967295)
    | .timeoutSecs => some (18446744073709551615 : UInt64)
    | _ => none
  | .render => some fun
    | .format => some ImageFormat.pdf
    | .backend => some (BackendSettings.server "http://uml:8080")
    | _ => none

theorem isArranged_backwards {φ : Type} [DecidableEq φ] {r : Record φ} {node : φ → Option Node}
    {ms : List (Key × Node)} {n : Node} (hcolour : r.field? "colour" = none)
    (hn : n.skipFlaw? = none) (h : ms.reverse = r.written node ++ [(.name "colour", n)]) :
    r.IsArranged node ms :=
  ⟨[(.name "colour", n)], List.forall_mem_singleton.2 ⟨⟨"colour", rfl, hcolour⟩, hn⟩,
    h ▸ ms.reverse_perm.symm⟩

theorem spells_backwards :
    record.Spells Field.Spells (Node.ofValue (backwards (2 ^ 32 - 1))) givenBackwards := by
  refine ⟨_, fun
    | .ai => some (Node.ofValue (aiBackwards (2 ^ 32 - 1)))
    | .render => some (Node.ofValue renderBackwards), rfl, fun f => ?_,
    isArranged_backwards (n := .null) (by decide) rfl rfl⟩
  cases f with
  | ai =>
    refine .some ⟨_, fun
      | .temperature => some .null
      | .maxTokens => some (.number (.ofInt (2 ^ 32 - 1)))
      | .timeoutSecs => some (.number (.ofInt (2 ^ 64 - 1)))
      | _ => none, rfl, fun f => ?_,
      isArranged_backwards (n := .object [] none) (by decide) rfl rfl⟩
    cases f with
    | temperature => exact .some .null
    | maxTokens => exact .some (.value rfl)
    | timeoutSecs => exact .some rfl
    | _ => exact .none
  | render =>
    refine .some ⟨_, fun
      | .format => some (.text (some "pdf"))
      | .backend => some (.object
        [(.name "url", .text (some "http://uml:8080")), (.name "kind", .text (some "server"))] none)
      | _ => none, rfl, fun f => ?_, isArranged_backwards (n := .bool true) (by decide) rfl rfl⟩
    cases f with
    | format => exact .some rfl
    | backend => exact .some (.server (.swap ..))
    | _ => exact .none

theorem parse_overlay_backwards :
    (Node.ofValue (backwards (2 ^ 32 - 1))).IsTreeOf (backwards (2 ^ 32 - 1)).compact ∧
    record.Spells Field.Spells (Node.ofValue (backwards (2 ^ 32 - 1))) givenBackwards ∧
    parse (backwards (2 ^ 32 - 1)).compact =
      .ok ⟨{ AiSettings.default with
          temperature := none, maxTokens := some 4294967295, timeoutSecs := 18446744073709551615 },
        ⟨"uml-diagram", .pdf, .server "http://uml:8080"⟩⟩ ∧
    ∃ e, parse (backwards (2 ^ 32)).compact = .error e := by
  have htree (tokens : ℤ) := Node.isTreeOf_write (backwards tokens) .compact
  have hai (tokens : ℤ) : (Key.name "ai", Node.ofValue (aiBackwards tokens)) ∈
      Node.ofMembers [("colour", .null), ("render", renderBackwards), ("ai", aiBackwards tokens)] :=
    .tail _ (.tail _ (.head _))
  refine ⟨htree _, spells_backwards, (parse_overlay _).1 _ _ (htree _) spells_backwards, ?_⟩
  exact ((parse_overlay _).2 _ _ _ _ (htree (2 ^ 32)) (hai (2 ^ 32))).2.1 (2 ^ 32)
    (.tail _ (.tail _ (.head _))) (.inr le_rfl)

end Settings
end ArchSketch

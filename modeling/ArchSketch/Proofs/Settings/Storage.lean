import ArchSketch.Proofs.Json.Record
import ArchSketch.Proofs.Json.Single
import ArchSketch.Settings.Storage

/-! Settings read back from the text they are stored as. Every member that is written comes back
as it was, but for a temperature that no numeral stands for. One that is left out comes back as
the default, so settings without a temperature or without a limit on the tokens do not survive. -/
namespace ArchSketch

open Json Number

namespace Json

def Numeral.ofInt (z : ℤ) : Numeral := ⟨z < 0, z.natAbs, [], none⟩

theorem Numeral.isInteger_ofInt (z : ℤ) : (Numeral.ofInt z).isInteger = true := by
  simp only [isInteger, ofInt, List.isEmpty_nil, Option.isNone_none, Bool.and_self, Bool.true_and,
    Bool.not_eq_true', Bool.and_eq_false_iff, decide_eq_false_iff_not, beq_eq_false_iff_ne]
  omega

theorem Numeral.ofInt_natCast (n : ℕ) : Numeral.ofInt n = Numeral.ofNat n := by
  simp [ofInt, ofNat]

namespace Decoder

theorem natBelow_ofInt {bound n : ℕ} {z : ℤ} :
    Decoder.natBelow bound (.number (.ofInt z)) = .ok n ↔ z = n ∧ n < bound := by
  have hnegative : (Numeral.ofInt z).negative = decide (z < 0) := rfl
  have hwhole : (Numeral.ofInt z).whole = z.natAbs := rfl
  unfold natBelow
  dsimp only
  rw [Numeral.isInteger_ofInt, hnegative, hwhole]
  by_cases hz : 0 ≤ z ∧ z.natAbs < bound
  · rw [if_pos (by simpa using hz), Except.ok.injEq]
    omega
  · rw [if_neg (by simpa using hz)]
    refine iff_of_false (fun h => ?_) (by omega)
    split at h <;> split at h <;> cases h

theorem word32_ofInt {z : ℤ} {w : UInt32} :
    Decoder.word32 (.number (.ofInt z)) = .ok w ↔ (w.toNat : ℤ) = z := by
  unfold word32
  simp only [map_eq_ok, natBelow_ofInt]
  constructor
  · rintro ⟨n, ⟨rfl, hn⟩, rfl⟩
    rw [UInt32.toNat_ofNat_of_lt' hn]
  · intro hz
    exact ⟨w.toNat, ⟨hz.symm, w.toNat_lt_size⟩, UInt32.ofNat_toNat⟩

theorem word64_ofInt {z : ℤ} {w : UInt64} :
    Decoder.word64 (.number (.ofInt z)) = .ok w ↔ (w.toNat : ℤ) = z := by
  unfold word64
  simp only [map_eq_ok, natBelow_ofInt]
  constructor
  · rintro ⟨n, ⟨rfl, hn⟩, rfl⟩
    rw [UInt64.toNat_ofNat_of_lt' hn]
  · intro hz
    exact ⟨w.toNat, ⟨hz.symm, w.toNat_lt_size⟩, UInt64.ofNat_toNat⟩

theorem word32_ofNat (n : UInt32) :
    Decoder.word32 (Node.ofValue (.number (.ofNat n.toNat))) = .ok n := by
  rw [← Numeral.ofInt_natCast]
  exact word32_ofInt.2 rfl

theorem word64_ofNat (n : UInt64) :
    Decoder.word64 (Node.ofValue (.number (.ofNat n.toNat))) = .ok n := by
  rw [← Numeral.ofInt_natCast]
  exact word64_ofInt.2 rfl

theorem single_ofSingle {x : Single} (hx : x.isFinite = true) :
    Decoder.single (Node.ofValue (.number (.ofSingle x))) = .ok x := by
  unfold Node.ofValue Decoder.single
  dsimp only
  rw [Numeral.toSingle?_ofSingle hx]

end Decoder
end Json

namespace AiSettings

theorem field?_name (f : Field) : record.field? (record.name f) = some f := by
  cases f <;> decide

def member (ai : AiSettings) : Field → Option Value
  | .provider => some (.text ai.provider)
  | .apiKey => some (.text ai.apiKey)
  | .model => some (.text ai.model)
  | .baseUrl => ai.baseUrl.map .text
  | .temperature => ai.temperature.map temperatureJson
  | .maxTokens => ai.maxTokens.map fun n => .number (.ofNat n.toNat)
  | .timeoutSecs => some (.number (.ofNat ai.timeoutSecs.toNat))

theorem toJson_eq (ai : AiSettings) :
    ai.toJson = .record (record.fields.map fun f => (record.name f, ai.member f)) :=
  rfl

def restoredTemperature (ai : AiSettings) : Option Single :=
  match ai.temperature with
  | some x => if x.isFinite then some x else none
  | none => default.temperature

/-- The settings that are read back: with the defaults in place of what is not written. -/
def restored (ai : AiSettings) : AiSettings :=
  { ai with
    temperature := ai.restoredTemperature
    maxTokens := ai.maxTokens.or default.maxTokens }

def fieldValue (ai : AiSettings) : (f : Field) → record.Value f
  | .provider => ai.provider
  | .apiKey => ai.apiKey
  | .model => ai.model
  | .baseUrl => ai.baseUrl
  | .temperature => ai.temperature
  | .maxTokens => ai.maxTokens
  | .timeoutSecs => ai.timeoutSecs

theorem decode_member (ai : AiSettings) (f : Field) (v : Value) (hv : ai.member f = some v) :
    record.decode f (Node.ofValue v) = .ok (ai.restored.fieldValue f) := by
  cases f with
  | provider | apiKey | model =>
    obtain rfl := Option.some.inj hv
    rfl
  | baseUrl =>
    obtain ⟨url, hurl, rfl⟩ := Option.map_eq_some_iff.1 hv
    simp only [fieldValue, restored, hurl]
    rfl
  | temperature =>
    obtain ⟨x, hx, rfl⟩ := Option.map_eq_some_iff.1 hv
    simp only [fieldValue, restored, restoredTemperature, hx]
    unfold temperatureJson
    split
    next hfinite => exact congrArg (Except.map some) (Decoder.single_ofSingle hfinite)
    next => rfl
  | maxTokens =>
    obtain ⟨n, hn, rfl⟩ := Option.map_eq_some_iff.1 hv
    simp only [fieldValue, restored, hn]
    exact congrArg (Except.map some) (Decoder.word32_ofNat n)
  | timeoutSecs =>
    obtain rfl := Option.some.inj hv
    exact Decoder.word64_ofNat _

theorem absent_member (ai : AiSettings) (f : Field) (hf : ai.member f = none) :
    record.absent f = some (ai.restored.fieldValue f) := by
  cases f with
  | provider | apiKey | model | timeoutSecs => cases hf
  | baseUrl =>
    have hurl := Option.map_eq_none_iff.1 hf
    simp only [fieldValue, restored, hurl]
    rfl
  | temperature =>
    have htemperature := Option.map_eq_none_iff.1 hf
    simp only [fieldValue, restored, restoredTemperature, htemperature]
    rfl
  | maxTokens =>
    have htokens := Option.map_eq_none_iff.1 hf
    simp only [fieldValue, restored, htokens]
    rfl

theorem decode_toJson (ai : AiSettings) : decode (Node.ofValue ai.toJson) = .ok ai.restored := by
  have hread : record.read (Node.ofValue ai.toJson) = .ok ai.restored.fieldValue := by
    rw [toJson_eq]
    exact Record.read_record field?_name ai.decode_member (by decide) ai.absent_member
  unfold decode
  rw [hread]
  rfl

theorem restored_eq_self_iff (ai : AiSettings) :
    ai.restored = ai ↔ ai.temperature.any Single.isFinite ∧ ai.maxTokens.isSome := by
  obtain ⟨provider, apiKey, model, baseUrl, temperature, maxTokens, timeoutSecs⟩ := ai
  have htemperature : restoredTemperature
      ⟨provider, apiKey, model, baseUrl, temperature, maxTokens, timeoutSecs⟩ = temperature ↔
      temperature.any Single.isFinite = true := by
    unfold restoredTemperature
    rcases temperature with _ | x
    · simp [default]
    · by_cases hfinite : x.isFinite = true <;> simp [hfinite]
  have htokens : maxTokens.or default.maxTokens = maxTokens ↔ maxTokens.isSome = true := by
    cases maxTokens <;> simp [default]
  rw [← htemperature, ← htokens]
  simp [restored]

end AiSettings

theorem ImageFormat.decode_name (f : ImageFormat) :
    ImageFormat.decode (Node.ofValue (.text f.name)) = .ok f := by
  cases f <;> rfl

namespace BackendSettings

theorem decode_toJson (b : BackendSettings) : decode (Node.ofValue b.toJson) = .ok b := by
  rcases b with (_ | program) | url
  · rfl
  · rfl
  · rfl

end BackendSettings

namespace RenderSettings

theorem field?_name (f : Field) : record.field? (record.name f) = some f := by
  cases f <;> decide

def member (r : RenderSettings) : Field → Value
  | .outputDir => .text r.outputDir
  | .format => .text r.format.name
  | .backend => r.backend.toJson

def fieldValue (r : RenderSettings) : (f : Field) → record.Value f
  | .outputDir => r.outputDir
  | .format => r.format
  | .backend => r.backend

theorem decode_toJson (r : RenderSettings) : decode (Node.ofValue r.toJson) = .ok r := by
  have hread : record.read (Node.ofValue r.toJson) = .ok r.fieldValue := by
    change record.read (Node.ofValue (.record (record.fields.map fun f =>
      (record.name f, some (r.member f))))) = _
    apply Record.read_record field?_name
    · intro f v hv
      obtain rfl := Option.some.inj hv
      cases f with
      | outputDir => rfl
      | format => exact ImageFormat.decode_name _
      | backend => exact BackendSettings.decode_toJson _
    · decide
    · intro f hf
      cases hf
  unfold decode
  rw [hread]
  rfl

end RenderSettings

namespace Settings

theorem field?_name (f : Field) : record.field? (record.name f) = some f := by
  cases f <;> decide

def member (s : Settings) : Field → Value
  | .ai => s.ai.toJson
  | .render => s.render.toJson

def fieldValue (s : Settings) : (f : Field) → record.Value f
  | .ai => s.ai
  | .render => s.render

/-- What is read back. -/
def restored (s : Settings) : Settings := { s with ai := s.ai.restored }

theorem decode_toJson (s : Settings) : decode (Node.ofValue s.toJson) = .ok s.restored := by
  have hread : record.read (Node.ofValue s.toJson) = .ok s.restored.fieldValue := by
    change record.read (Node.ofValue (.record (record.fields.map fun f =>
      (record.name f, some (s.member f))))) = _
    apply Record.read_record field?_name
    · intro f v hv
      obtain rfl := Option.some.inj hv
      cases f with
      | ai => exact AiSettings.decode_toJson _
      | render => exact RenderSettings.decode_toJson _
    · decide
    · intro f hf
      cases hf
  unfold decode
  rw [hread]
  rfl

/-- Settings come back from their file with the defaults for a temperature and a limit on the
tokens that they do not have. So they come back as they were exactly when they have both, and the
temperature is finite. -/
theorem parse_fileText (s : Settings) :
    parse s.fileText = .ok s.restored ∧
      (parse s.fileText = .ok s ↔
        s.ai.temperature.any Single.isFinite ∧ s.ai.maxTokens.isSome) := by
  have hparse : parse s.fileText = .ok s.restored := by
    unfold parse fileText Value.indented
    rw [Decoder.run_write, decode_toJson]
  refine ⟨hparse, ?_⟩
  rw [hparse, ← AiSettings.restored_eq_self_iff, Except.ok.injEq]
  obtain ⟨ai, render⟩ := s
  simp [restored]

end Settings
end ArchSketch

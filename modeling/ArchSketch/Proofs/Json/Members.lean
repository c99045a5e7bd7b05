import ArchSketch.Json.Record
import Mathlib

/-! What a record reads from the members of an object. Whatever order they come in, an object is
read exactly when each field stands in it at most once with a value of its kind, those that are
missing may be missing, and nothing else in it is broken. All that is known of the order, of second
names and of foreign members follows from this. -/
namespace ArchSketch.Json

theorem bind_eq_ok {ε α β : Type} {x : Except ε α} {f : α → Except ε β} {b : β} :
    x >>= f = .ok b ↔ ∃ a, x = .ok a ∧ f a = .ok b := by
  cases x with
  | error e => simp [bind, Except.bind]
  | ok a => simp [bind, Except.bind]

theorem map_eq_ok {ε α β : Type} {x : Except ε α} {f : α → β} {b : β} :
    x.map f = .ok b ↔ ∃ a, x = .ok a ∧ f a = b := by
  cases x with
  | error e => simp [Except.map]
  | ok a => simp [Except.map]

theorem exists_eq_error {ε α : Type} {x : Except ε α} (h : ∀ a, x ≠ .ok a) :
    ∃ e, x = .error e := by
  cases x with
  | error e => exact ⟨e, rfl⟩
  | ok a => exact absurd rfl (h a)

theorem orFlaw_eq_ok {α : Type} {flaw? : Option Flaw} {a b : α} :
    orFlaw flaw? a = .ok b ↔ flaw? = none ∧ a = b := by
  cases flaw? <;> simp [orFlaw]

def Node.IsTreeOf (n : Node) (text : String) : Prop :=
  ∃ rest, Node.read text.toList = (n, rest) ∧ (skipSpace rest).isEmpty = true

theorem Decoder.run_eq_ok {α : Type} {d : Decoder α} {text : String} {a : α} :
    d.run text = .ok a ↔ ∃ n : Node, n.IsTreeOf text ∧ d n = .ok a := by
  unfold Decoder.run Node.IsTreeOf
  rcases Node.read text.toList with ⟨n, rest⟩
  dsimp only
  rw [bind_eq_ok]
  constructor
  · rintro ⟨b, hb, hrest⟩
    split at hrest
    next hspace =>
      obtain rfl := Except.ok.inj hrest
      exact ⟨n, ⟨rest, rfl, hspace⟩, hb⟩
    next => cases hrest
  · rintro ⟨_, ⟨_, ⟨rfl, rfl⟩, hspace⟩, ha⟩
    exact ⟨a, ha, if_pos hspace⟩

theorem Node.IsTreeOf.run {α : Type} {n : Node} {text : String} (h : n.IsTreeOf text)
    (d : Decoder α) : d.run text = d n := by
  obtain ⟨rest, hread, hspace⟩ := h
  unfold Decoder.run
  rw [hread]
  dsimp only
  rw [hspace]
  rcases d n with e | a <;> rfl

namespace Record

variable {φ : Type} [DecidableEq φ] {r : Record φ}

theorem Draft.set_self (d : r.Draft) (f : φ) (v : r.Value f) : d.set f v f = some v := by
  simp [Draft.set]

theorem Draft.set_ne (d : r.Draft) {f g : φ} (v : r.Value f) (h : f ≠ g) : d.set f v g = d g := by
  simp [Draft.set, h]

theorem complete_eq_ok {d : r.Draft} {value : (f : φ) → r.Value f} :
    r.complete d = .ok value ↔ ∀ f, r.value? d f = some (value f) := by
  unfold complete
  split
  next f hfind =>
    have hnone := List.find?_some hfind
    refine iff_of_false (by simp) fun h => ?_
    simp [h f] at hnone
  next hfind =>
    constructor
    · intro h f
      rw [← Except.ok.inj h]
      simp
    · intro h
      congr 1
      funext f
      simp [h f]

def fieldOf (r : Record φ) : Key → Option φ
  | .name key => r.field? key
  | _ => none

def under (r : Record φ) (f : φ) (ms : List (Key × Node)) : List Node :=
  ms.filterMap fun m => if r.fieldOf m.1 = some f then some m.2 else none

def IsForeign (r : Record φ) (m : Key × Node) : Prop :=
  (∃ key, m.1 = .name key ∧ r.field? key = none) ∧ m.2.skipFlaw? = none

def IsReadable (r : Record φ) (m : Key × Node) : Prop := (r.fieldOf m.1).isSome ∨ r.IsForeign m

theorem under_cons_self {f : φ} {m : Key × Node} (hf : r.fieldOf m.1 = some f)
    (ms : List (Key × Node)) : r.under f (m :: ms) = m.2 :: r.under f ms := by
  simp [under, hf]

theorem under_cons_ne {f : φ} {m : Key × Node} (hf : r.fieldOf m.1 ≠ some f)
    (ms : List (Key × Node)) : r.under f (m :: ms) = r.under f ms := by
  simp [under, hf]

theorem under_append (f : φ) (ms ms' : List (Key × Node)) :
    r.under f (ms ++ ms') = r.under f ms ++ r.under f ms' :=
  List.filterMap_append

theorem IsForeign.fieldOf {m : Key × Node} (h : r.IsForeign m) : r.fieldOf m.1 = none := by
  obtain ⟨⟨key, hkey, hnone⟩, -⟩ := h
  rw [hkey]
  exact hnone

theorem readMember_eq_ok {d d' : r.Draft} {m : Key × Node} :
    r.readMember d m = .ok d' ↔ (r.IsForeign m ∧ d' = d) ∨
      ∃ f v, r.fieldOf m.1 = some f ∧ d f = none ∧ r.decode f m.2 = .ok v ∧ d' = d.set f v := by
  obtain ⟨key, n⟩ := m
  cases key with
  | missing => simp [readMember, IsForeign, fieldOf]
  | lone => simp [readMember, IsForeign, fieldOf]
  | name key =>
    unfold readMember
    dsimp only
    cases hfield : r.field? key with
    | none =>
      rw [orFlaw_eq_ok]
      simp [IsForeign, fieldOf, hfield, eq_comm]
    | some f =>
      dsimp only
      split
      next hf =>
        simp only [reduceCtorEq, IsForeign, fieldOf, hfield, Key.name.injEq, Option.some.injEq,
          false_iff, not_or]
        refine ⟨by simp [hfield], ?_⟩
        rintro ⟨_, v, rfl, hnone, -⟩
        simp [hnone] at hf
      next hf =>
        have hnone : d f = none := by simpa using hf
        rw [bind_eq_ok]
        constructor
        · rintro ⟨v, hv, hset⟩
          exact .inr ⟨f, v, hfield, hnone, hv, (Except.ok.inj hset).symm⟩
        · rintro (⟨hforeign, -⟩ | ⟨_, v, hf', -, hv, rfl⟩)
          · have := hforeign.fieldOf
            simp [fieldOf, hfield] at this
          · obtain rfl : f = _ := Option.some.inj (hfield.symm.trans hf')
            exact ⟨v, hv, rfl⟩

/-- What stands under a field, one after the other, takes it from one state to another. -/
def Fills (r : Record φ) (f : φ) : List Node → (before after : Option (r.Value f)) → Prop
  | [], before, after => after = before
  | n :: ns, before, after =>
    before = none ∧ ∃ v, r.decode f n = .ok v ∧ r.Fills f ns (some v) after

theorem Fills.perm {f : φ} {ns ns' : List Node} {before after : Option (r.Value f)}
    (h : r.Fills f ns before after) (hperm : ns.Perm ns') : r.Fills f ns' before after := by
  rcases ns with _ | ⟨n, _ | ⟨n', ns⟩⟩
  · rwa [List.nil_perm.1 hperm]
  · rwa [← List.singleton_perm.1 hperm]
  · obtain ⟨-, v, -, hclash, -⟩ := h
    cases hclash

/-- Only what stands under a field has to do with it. -/
theorem foldlM_readMember_eq_ok {ms : List (Key × Node)} {d d' : r.Draft} :
    ms.foldlM r.readMember d = .ok d' ↔
      (∀ m ∈ ms, r.IsReadable m) ∧ ∀ f, r.Fills f (r.under f ms) (d f) (d' f) := by
  induction ms generalizing d with
  | nil =>
    simp only [List.foldlM_nil, List.not_mem_nil, false_implies, implies_true, true_and]
    constructor
    · intro h f
      rw [← Except.ok.inj h]
      rfl
    · intro h
      exact congrArg Except.ok (funext h).symm
  | cons m ms ih =>
    rw [List.foldlM_cons, bind_eq_ok, List.forall_mem_cons]
    constructor
    · rintro ⟨d₁, hm, hms⟩
      obtain ⟨hreadable, hfills⟩ := ih.1 hms
      rcases readMember_eq_ok.1 hm with ⟨hforeign, rfl⟩ | ⟨f, v, hf, hopen, hv, rfl⟩
      · refine ⟨⟨.inr hforeign, hreadable⟩, fun g => ?_⟩
        rw [under_cons_ne (by simp [hforeign.fieldOf])]
        exact hfills g
      · refine ⟨⟨.inl (by simp [hf]), hreadable⟩, fun g => ?_⟩
        have hg := hfills g
        -- the slot of `f` is filled, the others are as they were
        by_cases hfg : f = g
        · subst hfg
          rw [Draft.set_self] at hg
          rw [under_cons_self hf]
          exact ⟨hopen, v, hv, hg⟩
        · rw [Draft.set_ne d v hfg] at hg
          rwa [under_cons_ne (by simpa [hf] using hfg)]
    · rintro ⟨⟨hm | hforeign, hreadable⟩, hfills⟩
      · obtain ⟨f, hf⟩ := Option.isSome_iff_exists.1 hm
        have hfilled := hfills f
        rw [under_cons_self hf] at hfilled
        obtain ⟨hopen, v, hv, hrest⟩ := hfilled
        refine ⟨d.set f v, readMember_eq_ok.2 (.inr ⟨f, v, hf, hopen, hv, rfl⟩),
          ih.2 ⟨hreadable, fun g => ?_⟩⟩
        by_cases hfg : f = g
        · subst hfg
          rwa [Draft.set_self]
        · have hg := hfills g
          rw [under_cons_ne (by simpa [hf] using hfg)] at hg
          rwa [Draft.set_ne d v hfg]
      · refine ⟨d, readMember_eq_ok.2 (.inl ⟨hforeign, rfl⟩), ih.2 ⟨hreadable, fun g => ?_⟩⟩
        have hg := hfills g
        rwa [under_cons_ne (by simp [hforeign.fieldOf])] at hg

theorem foldlM_readMember_perm {ms ms' : List (Key × Node)} {d d' : r.Draft}
    (h : ms.foldlM r.readMember d = .ok d') (hperm : ms.Perm ms') :
    ms'.foldlM r.readMember d = .ok d' := by
  obtain ⟨hreadable, hfills⟩ := foldlM_readMember_eq_ok.1 h
  exact foldlM_readMember_eq_ok.2 ⟨fun m hm => hreadable m (hperm.mem_iff.2 hm),
    fun f => (hfills f).perm (hperm.filterMap _)⟩

/-- What stands under a field gives it a value: alone and of the field's kind, or not at all where
the field may be absent. -/
inductive Gives (r : Record φ) (f : φ) : List Node → r.Value f → Prop
  | absent {v : r.Value f} : r.absent f = some v → Gives r f [] v
  | alone {n : Node} {v : r.Value f} : r.decode f n = .ok v → Gives r f [n] v

theorem gives_iff {f : φ} {ns : List Node} {v : r.Value f} :
    r.Gives f ns v ↔ ∃ v?, r.Fills f ns none v? ∧ v?.or (r.absent f) = some v := by
  constructor
  · intro h
    cases h with
    | absent h => exact ⟨none, rfl, h⟩
    | alone h => exact ⟨some v, ⟨rfl, v, h, rfl⟩, rfl⟩
  · rintro ⟨v?, hfills, hv⟩
    rcases ns with _ | ⟨n, _ | ⟨n', ns⟩⟩
    · obtain rfl : v? = none := hfills
      exact .absent hv
    · obtain ⟨-, w, hw, rfl⟩ := hfills
      obtain rfl := Option.some.inj hv
      exact .alone hw
    · obtain ⟨-, w, -, hclash, -⟩ := hfills
      cases hclash

theorem readMembers_eq_ok {ms : List (Key × Node)} {open? : Option Flaw}
    {value : (f : φ) → r.Value f} :
    r.readMembers ms open? = .ok value ↔
      open? = none ∧ (∀ m ∈ ms, r.IsReadable m) ∧ ∀ f, r.Gives f (r.under f ms) (value f) := by
  unfold readMembers
  simp only [bind_eq_ok, orFlaw_eq_ok, complete_eq_ok, foldlM_readMember_eq_ok, gives_iff]
  constructor
  · rintro ⟨d, ⟨hreadable, hfills⟩, _, ⟨hopen, rfl⟩, hvalue⟩
    exact ⟨hopen, hreadable, fun f => ⟨d f, hfills f, hvalue f⟩⟩
  · rintro ⟨hopen, hreadable, hgives⟩
    choose d hfills hvalue using hgives
    exact ⟨d, ⟨hreadable, hfills⟩, d, ⟨hopen, rfl⟩, hvalue⟩

theorem Gives.perm {f : φ} {ns ns' : List Node} {v : r.Value f} (h : r.Gives f ns v)
    (hperm : ns.Perm ns') : r.Gives f ns' v := by
  obtain ⟨v?, hfills, hv⟩ := gives_iff.1 h
  exact gives_iff.2 ⟨v?, hfills.perm hperm, hv⟩

theorem Gives.decode_mem {f : φ} {ns : List Node} {v : r.Value f} (h : r.Gives f ns v) {n : Node}
    (hn : n ∈ ns) : r.decode f n = .ok v := by
  cases h with
  | absent _ => cases hn
  | alone hv => rwa [List.mem_singleton.1 hn]

theorem decode_of_readMembers {ms : List (Key × Node)} {open? : Option Flaw}
    {value : (f : φ) → r.Value f} (h : r.readMembers ms open? = .ok value) {f : φ} {key : String}
    (hf : r.field? key = some f) {n : Node} (hn : (.name key, n) ∈ ms) :
    r.decode f n = .ok (value f) := by
  obtain ⟨-, -, hgives⟩ := readMembers_eq_ok.1 h
  exact (hgives f).decode_mem (List.mem_filterMap.2 ⟨_, hn, if_pos hf⟩)

def written (r : Record φ) (node : φ → Option Node) : List (Key × Node) :=
  r.fields.filterMap fun f => (node f).map (.name (r.name f), ·)

/-- These members in any order, and foreign ones among them. -/
def IsArranged (r : Record φ) (node : φ → Option Node) (ms : List (Key × Node)) : Prop :=
  ∃ others, (∀ m ∈ others, r.IsForeign m) ∧ ms.Perm (r.written node ++ others)

theorem under_eq_nil {f : φ} {ms : List (Key × Node)} (h : ∀ m ∈ ms, r.fieldOf m.1 ≠ some f) :
    r.under f ms = [] :=
  List.filterMap_eq_nil_iff.2 fun m hm => if_neg (h m hm)

section

variable {node : φ → Option Node} {value : (f : φ) → r.Value f}
  (hfield : ∀ f, r.field? (r.name f) = some f)

include hfield

theorem under_filterMap (f : φ) {fs : List φ} (hnodup : fs.Nodup) :
    r.under f (fs.filterMap fun g => (node g).map (.name (r.name g), ·)) =
      if f ∈ fs then (node f).toList else [] := by
  induction fs with
  | nil => rfl
  | cons g fs ih =>
    obtain ⟨hnot, hnodup⟩ := List.nodup_cons.1 hnodup
    have hg : r.fieldOf (.name (r.name g)) = some g := hfield g
    rw [List.filterMap_cons]
    by_cases hfg : g = f
    · subst hfg
      cases hnode : node g with
      | none => simp [ih hnodup, hnot]
      | some n => simp [under_cons_self (m := (.name (r.name g), n)) hg, ih hnodup, hnot]
    · have hne : r.fieldOf (.name (r.name g)) ≠ some f := by simpa [hg] using hfg
      cases hnode : node g with
      | none => simp [ih hnodup, Ne.symm hfg]
      | some n =>
        simp [under_cons_ne (m := (.name (r.name g), n)) hne, ih hnodup, Ne.symm hfg]

variable (hnodup : r.fields.Nodup)
  (hdecode : ∀ f n, node f = some n → r.decode f n = .ok (value f))
  (habsent : ∀ f, node f = none → r.absent f = some (value f))

include hnodup hdecode habsent

theorem IsArranged.readMembers {ms : List (Key × Node)} (h : r.IsArranged node ms) :
    r.readMembers ms none = .ok value := by
  obtain ⟨others, hothers, hperm⟩ := h
  refine readMembers_eq_ok.2 ⟨rfl, fun m hm => ?_, fun f => ?_⟩
  · rcases List.mem_append.1 (hperm.mem_iff.1 hm) with hm | hm
    · obtain ⟨f, -, hm⟩ := List.mem_filterMap.1 hm
      obtain ⟨n, -, rfl⟩ := Option.map_eq_some_iff.1 hm
      exact .inl (by simp [fieldOf, hfield])
    · exact .inr (hothers m hm)
  · have hothers : r.under f others = [] :=
      under_eq_nil fun m hm => by simp [(hothers m hm).fieldOf]
    have hgives : r.Gives f (r.under f (r.written node ++ others)) (value f) := by
      rw [under_append, hothers, written, under_filterMap hfield f hnodup,
        if_pos (r.mem_fields f), List.append_nil]
      cases hnode : node f with
      | none => exact .absent (habsent f hnode)
      | some n => exact .alone (hdecode f n hnode)
    exact hgives.perm (hperm.symm.filterMap _)

end

/-- An object with one member for each field that something is given for, written as `spells` has
it. -/
def Spells (r : Record φ) {Part : φ → Type} (spells : (f : φ) → Node → Part f → Prop) (n : Node)
    (given : (f : φ) → Option (Part f)) : Prop :=
  ∃ ms node, n = .object ms none ∧ (∀ f, Option.Rel (spells f) (node f) (given f)) ∧
    r.IsArranged node ms

/-- Where every field may be absent, what is given takes the place of what absence stands for. -/
theorem Spells.read {Part : φ → Type} {spells : (f : φ) → Node → Part f → Prop} {n : Node}
    {given : (f : φ) → Option (Part f)} {rest : (f : φ) → r.Value f}
    {value : (f : φ) → Part f → r.Value f} (h : r.Spells spells n given)
    (hfield : ∀ f, r.field? (r.name f) = some f) (hnodup : r.fields.Nodup)
    (hdecode : ∀ f n v, spells f n v → r.decode f n = .ok (value f v))
    (habsent : ∀ f, r.absent f = some (rest f)) :
    r.read n = .ok fun f => ((given f).map (value f)).getD (rest f) := by
  obtain ⟨ms, node, rfl, hspells, harranged⟩ := h
  refine harranged.readMembers hfield hnodup (fun f n hn => ?_) fun f hn => ?_
  · have hrel := hspells f
    rw [hn] at hrel
    generalize given f = v? at hrel
    cases hrel with
    | some hv => exact hdecode f n _ hv
  · have hrel := hspells f
    rw [hn] at hrel
    generalize given f = v? at hrel
    cases hrel
    exact habsent f

end Record
end ArchSketch.Json

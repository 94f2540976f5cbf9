import TreeKinds.Proofs.Toml.Document
import TreeKinds.Settings.Config

/-! Which documents are configurations. Each entry either sets a field or is the first that does not
fit, and then nothing after it counts. Proved: a document is accepted when all its entries fit, each
field is then the value of its key, in whatever order the keys stand; and a text that is no document
is refused as such. -/
namespace TreeKinds.Settings.Config

open Toml (Document Entry Value)

/-! ### The schema -/

/-- The keys that a configuration may have, each with the values that it takes. -/
inductive Fits : (name : String) → Value → Prop
  | output (path : String) : Fits "output" (.string path)
  | removePartialOutput (b : Bool) : Fits "remove_partial_output" (.boolean b)

/-- Why an entry does not fit. -/
inductive Misfits (e : Entry) : ConfigFault → Prop
  | unknownField : e.key.name ≠ "output" → e.key.name ≠ "remove_partial_output" →
      Misfits e (.misfit (.unknownField e.key.name) e.key.mark)
  | output : e.key.name = "output" → (∀ path, e.value ≠ .string path) →
      Misfits e (.misfit (.wrongType e.value "path string") e.mark)
  | removePartialOutput : e.key.name = "remove_partial_output" → (∀ b, e.value ≠ .boolean b) →
      Misfits e (.misfit (.wrongType e.value "a boolean") e.mark)

/-- The fault of the first entry that does not fit, whatever stands after it. -/
inductive FirstMisfit : Document → ConfigFault → Prop
  | here {e : Entry} {f : ConfigFault} (d : Document) : Misfits e f → FirstMisfit (e :: d) f
  | later {e : Entry} {d : Document} {f : ConfigFault} : Fits e.key.name e.value →
      FirstMisfit d f → FirstMisfit (e :: d) f

/-- Each field is the value of its key, and unset without the key. -/
structure Holds (d : Document) (c : Config) : Prop where
  output : d.value? "output" = c.output.map .string
  removePartialOutput : d.value? "remove_partial_output" = c.removePartialOutput.map .boolean

/-! ### One entry -/

variable {c : Config} {d : Document} {e : Entry} {f : ConfigFault}

theorem fits_or_misfits (e : Entry) : Fits e.key.name e.value ∨ ∃ f, Misfits e f := by
  obtain ⟨⟨key, mark⟩, value, _⟩ := e
  dsimp only
  by_cases ho : key = "output"
  · subst ho
    cases value with
    | string path => exact .inl (.output path)
    | _ => exact .inr ⟨_, .output rfl nofun⟩
  by_cases hr : key = "remove_partial_output"
  · subst hr
    cases value with
    | boolean b => exact .inl (.removePartialOutput b)
    | _ => exact .inr ⟨_, .removePartialOutput rfl nofun⟩
  exact .inr ⟨_, .unknownField ho hr⟩

/-- The value of each key as the configuration has it. -/
def value? (c : Config) (name : String) : Option Value :=
  if name = "output" then c.output.map .string
  else if name = "remove_partial_output" then c.removePartialOutput.map .boolean
  else none

/-- An entry that fits sets its own key alone. -/
theorem setEntry_of_fits (c : Config) (h : Fits e.key.name e.value) :
    ∃ c', c.setEntry e = .ok c' ∧
      ∀ name, c'.value? name = if e.key.name = name then some e.value else c.value? name := by
  obtain ⟨⟨key, mark⟩, value, _⟩ := e
  dsimp only at h
  cases h with
  | output path =>
    refine ⟨{ c with output := some path }, rfl, fun name => ?_⟩
    by_cases hn : "output" = name
    · subst hn
      rfl
    · simp [value?, hn, Ne.symm hn]
  | removePartialOutput b =>
    refine ⟨{ c with removePartialOutput := some b }, rfl, fun name => ?_⟩
    by_cases hn : "remove_partial_output" = name
    · subst hn
      rfl
    · simp [value?, hn, Ne.symm hn]

theorem setEntry_of_misfits (c : Config) (h : Misfits e f) : c.setEntry e = .error f := by
  cases h with
  | unknownField ho hr => rw [setEntry, if_neg ho, if_neg hr]
  | output ho hs =>
    rw [setEntry, if_pos ho]
    split
    next path hv => exact absurd hv (hs path)
    next => rfl
  | removePartialOutput hr hb =>
    rw [setEntry, hr, if_neg (by simp), if_pos rfl]
    split
    next b hv => exact absurd hv (hb b)
    next => rfl

/-! ### All the entries -/

theorem fits_or_firstMisfit (d : Document) :
    (∀ e ∈ d, Fits e.key.name e.value) ∨ ∃ f, FirstMisfit d f := by
  induction d with
  | nil => exact .inl nofun
  | cons e d ih =>
    obtain he | ⟨f, hf⟩ := fits_or_misfits e
    · obtain hd | ⟨f, hf⟩ := ih
      · exact .inl (List.forall_mem_cons.2 ⟨he, hd⟩)
      · exact .inr ⟨f, .later he hf⟩
    · exact .inr ⟨f, .here d hf⟩

theorem foldlM_of_fits (c : Config) (hd : (d.map (·.key.name)).Nodup)
    (h : ∀ e ∈ d, Fits e.key.name e.value) :
    ∃ c', d.foldlM setEntry c = .ok c' ∧
      ∀ name, c'.value? name = (d.value? name).or (c.value? name) := by
  induction d generalizing c with
  | nil => exact ⟨c, rfl, fun _ => rfl⟩
  | cons e d ih =>
    rw [List.map_cons, List.nodup_cons] at hd
    rw [List.forall_mem_cons] at h
    obtain ⟨c₁, hc₁, hvalue₁⟩ := setEntry_of_fits c h.1
    obtain ⟨c₂, hc₂, hvalue₂⟩ := ih c₁ hd.2 h.2
    refine ⟨c₂, by rw [List.foldlM_cons, hc₁]; exact hc₂, fun name => ?_⟩
    rw [hvalue₂, hvalue₁, Document.value?_cons]
    split
    next hname =>
      -- nothing below the entry sets its key again
      rw [Document.value?_eq_none_of_not_mem (hname ▸ hd.1)]
      rfl
    next => rfl

theorem foldlM_of_firstMisfit (c : Config) (h : FirstMisfit d f) :
    d.foldlM setEntry c = .error f := by
  induction h generalizing c with
  | here d h =>
    rw [List.foldlM_cons, setEntry_of_misfits c h]
    rfl
  | later he _ ih =>
    obtain ⟨c', hc', -⟩ := setEntry_of_fits c he
    rw [List.foldlM_cons, hc']
    exact ih c'

theorem ofDocument_of_fits (hd : (d.map (·.key.name)).Nodup)
    (h : ∀ e ∈ d, Fits e.key.name e.value) : ∃ c, ofDocument d = .ok c ∧ Holds d c := by
  obtain ⟨c, hc, hvalue⟩ := foldlM_of_fits empty hd h
  have hempty (name : String) : empty.value? name = none := by simp [value?, empty]
  simp only [hempty, Option.or_none] at hvalue
  exact ⟨c, hc, (hvalue "output").symm, (hvalue "remove_partial_output").symm⟩

theorem Holds.unique {c c' : Config} (h : Holds d c) (h' : Holds d c') : c = c' := by
  obtain ⟨ho, hr⟩ := h
  rw [h'.output, Option.map_inj_right fun _ _ => Value.string.inj] at ho
  rw [h'.removePartialOutput, Option.map_inj_right fun _ _ => Value.boolean.inj] at hr
  cases c
  cases c'
  cases ho
  cases hr
  rfl

/-- A document is accepted when all its entries fit, and then it is what the configuration holds. -/
theorem ofDocument_eq_ok_iff (hd : (d.map (·.key.name)).Nodup) :
    ofDocument d = .ok c ↔ (∀ e ∈ d, Fits e.key.name e.value) ∧ Holds d c := by
  constructor
  · intro h
    obtain hfits | ⟨f, hf⟩ := fits_or_firstMisfit d
    · obtain ⟨c', hc', hholds⟩ := ofDocument_of_fits hd hfits
      cases hc'.symm.trans h
      exact ⟨hfits, hholds⟩
    · cases (foldlM_of_firstMisfit empty hf).symm.trans h
  · rintro ⟨hfits, hholds⟩
    obtain ⟨c', hc', hholds'⟩ := ofDocument_of_fits hd hfits
    rw [hc', hholds.unique hholds']

theorem ofDocument_eq_error_iff (hd : (d.map (·.key.name)).Nodup) :
    ofDocument d = .error f ↔ FirstMisfit d f := by
  constructor
  · intro h
    obtain hfits | ⟨f', hf'⟩ := fits_or_firstMisfit d
    · obtain ⟨c, hc, -⟩ := ofDocument_of_fits hd hfits
      cases hc.symm.trans h
    · cases (foldlM_of_firstMisfit empty hf').symm.trans h
      exact hf'
  · exact foldlM_of_firstMisfit empty

/-! ### Texts -/

theorem FirstMisfit.ne_notToml (h : FirstMisfit d f) : f ≠ .notToml := by
  induction h with
  | here _ h => cases h <;> nofun
  | later _ _ ih => exact ih

theorem fits_of_perm {d' : Document} (h : d.contents.Perm d'.contents)
    (hd : ∀ e ∈ d, Fits e.key.name e.value) : ∀ e ∈ d', Fits e.key.name e.value := by
  have hcontents : ∀ entry ∈ d.contents, Fits entry.1 entry.2 := List.forall_mem_map.2 hd
  exact List.forall_mem_map.1 fun entry hentry => hcontents entry (h.mem_iff.2 hentry)

theorem Holds.of_perm {d' : Document} (hd : (d.map (·.key.name)).Nodup)
    (hd' : (d'.map (·.key.name)).Nodup) (h : d.contents.Perm d'.contents) (hc : Holds d c) :
    Holds d' c where
  output := by rw [← Document.value?_eq_of_perm hd hd' h, hc.output]
  removePartialOutput := by rw [← Document.value?_eq_of_perm hd hd' h, hc.removePartialOutput]

theorem ofText_of_read {text : String} (h : Document.read text = some d) :
    ofText text = ofDocument d := by
  rw [ofText, h]

/-- A text is refused as no document before anything else. A document is accepted when every key is
known and has a value of its type, its fields are then the values of their keys, and those in
another order are the same configuration; otherwise the first key that does not fit says why. -/
theorem ofText_accepts_schema (text : String) :
    (ofText text = .error .notToml ↔ Document.read text = none) ∧
    ∀ d, Document.read text = some d →
      ((∃ c, ofText text = .ok c) ↔ ∀ e ∈ d, Fits e.key.name e.value) ∧
      (∀ c, ofText text = .ok c → Holds d c) ∧
      (∀ text' d', Document.read text' = some d' → d.contents.Perm d'.contents →
        ∀ c, ofText text = .ok c → ofText text' = .ok c) ∧
      ∀ f, ofText text = .error f ↔ FirstMisfit d f := by
  constructor
  · cases hd : Document.read text with
    | none => simp [ofText, hd]
    | some d =>
      rw [ofText_of_read hd, ofDocument_eq_error_iff (Toml.nodup_keys_read hd)]
      simp only [reduceCtorEq, iff_false]
      exact fun h => h.ne_notToml rfl
  · intro d hread
    have hd := Toml.nodup_keys_read hread
    simp only [ofText_of_read hread, ofDocument_eq_ok_iff hd]
    refine ⟨⟨fun ⟨_, hfits, _⟩ => hfits, fun hfits => ?_⟩, fun _ hc => hc.2, ?_,
      fun _ => ofDocument_eq_error_iff hd⟩
    · obtain ⟨c, -, hholds⟩ := ofDocument_of_fits hd hfits
      exact ⟨c, hfits, hholds⟩
    · rintro text' d' hread' hperm c ⟨hfits, hholds⟩
      have hd' := Toml.nodup_keys_read hread'
      rw [ofText_of_read hread', ofDocument_eq_ok_iff hd']
      exact ⟨fits_of_perm hperm hfits, hholds.of_perm hd hd' hperm⟩

end TreeKinds.Settings.Config

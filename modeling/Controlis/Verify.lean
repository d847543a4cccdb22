import Controlis.ConnectCode

/-!
# Which strings a code accepts

`verify` reads the candidate with `parse` and compares canonical forms. What
`parse` refuses it compares after a coarser normaliser, which drops everything
but ASCII letters and digits: such a string is accepted iff these are the
sixteen symbols of the code as they are displayed, aliases not included.
-/

namespace Controlis.Security
open Numeral

theorem alphabet_coarse : ∀ c ∈ alphabet, c.isAlphanum = true ∧ c.toUpper = c := by
  have h : alphabet.all (fun c => c.isAlphanum && c.toUpper == c) = true := by decide
  intro c hc
  simpa using List.all_eq_true.mp h c hc

theorem getD_mem_alphabet (d : ℕ) : alphabet.getD d '0' ∈ alphabet := by
  by_cases hd : d < alphabet.length
  · rw [List.getD_eq_getElem _ _ hd]
    exact List.getElem_mem hd
  · rw [List.getD_eq_default _ _ (not_lt.mp hd)]
    decide

theorem normalizeCode_grouped (ds : List ℕ) :
    normalizeCode (grouped ds) = ds.map fun d => alphabet.getD d '0' := by
  have hkeep (es : List ℕ) : (es.map fun d => alphabet.getD d '0').filter Char.isAlphanum =
      es.map fun d => alphabet.getD d '0' := by
    apply List.filter_eq_self.mpr
    intro c hc
    obtain ⟨d, -, rfl⟩ := List.mem_map.mp hc
    exact (alphabet_coarse _ (getD_mem_alphabet d)).1
  have hupper (d : ℕ) : (alphabet.getD d '0').toUpper = alphabet.getD d '0' :=
    (alphabet_coarse _ (getD_mem_alphabet d)).2
  have hdash : Char.isAlphanum '-' = false := by decide
  simp only [normalizeCode, grouped, String.toList_ofList, List.filter_append, List.filter_cons,
    hdash, Bool.false_eq_true, if_false, ← List.map_take, ← List.map_drop, hkeep]
  simp only [← List.map_append, List.map_map, Function.comp_def, hupper]
  congr 1
  rw [← List.drop_drop (i := 4) (j := 8), ← List.drop_drop (i := 4) (j := 4)]
  simp only [List.take_append_drop]

theorem normalizeCode_eq_symbols (ds : List ℕ) :
    normalizeCode (grouped ds) = symbols (grouped ds) := by
  rw [normalizeCode_grouped, symbols_grouped]

theorem symbols_injective {ds es : List ℕ} (hds : ∀ d ∈ ds, d < 32) (hes : ∀ e ∈ es, e < 32)
    (h : symbols (grouped ds) = symbols (grouped es)) : ds = es := by
  have hspells : Spells (grouped ds) es := by
    rw [Spells, h]
    exact spells_grouped hes
  exact (spells_grouped hds).unique hspells

theorem verifyCode_grouped {ds es : List ℕ} (hds : ∀ d ∈ ds, d < 32) (hes : ∀ e ∈ es, e < 32) :
    verifyCode (grouped ds) (grouped es) = true ↔ ds = es := by
  rw [verifyCode, beq_iff_eq, normalizeCode_eq_symbols, normalizeCode_eq_symbols]
  constructor
  · exact symbols_injective hds hes
  · rintro rfl
    rfl

theorem parse_assembled {s : String} {c : ConnectCode} (h : parse s = .ok c) :
    ∃ (target : ConnectTarget) (secret : UInt32), target.InRange ∧
      secret.toNat < 2 ^ secretBits ∧ c = assemble target secret := by
  obtain ⟨ds, hs, hlen⟩ := parse_ok h
  rw [parse_spells hs hlen, parsePayload_eq] at h
  generalize value 32 ds = v at h
  have hsecret : (UInt32.ofNat (v / 2 ^ 48 % 2 ^ 30)).toNat < 2 ^ secretBits := by
    rw [UInt32.toNat_ofNat', secretBits]
    omega
  split_ifs at h
  · exact ⟨.lan _, _, trivial, hsecret, (Except.ok.inj h).symm⟩
  · refine ⟨.rendezvous _, _, ?_, hsecret, (Except.ok.inj h).symm⟩
    rw [ConnectTarget.InRange, UInt64.toNat_ofNat', rendezvousIdBits]
    omega

variable {target : ConnectTarget} {secret : UInt32}

theorem verify_parsed {s : String} {c : ConnectCode} (h : parse s = .ok c) :
    (assemble target secret).verify s = true ↔ c.code = (assemble target secret).code := by
  obtain ⟨target', secret', -, -, rfl⟩ := parse_assembled h
  have hdigits (v : ℕ) : ∀ d ∈ digits 32 codeChars v, d < 32 := digits_lt (by decide)
  rw [ConnectCode.verify, h]
  dsimp only
  rw [assemble_code, assemble_code, verifyCode_grouped (hdigits _) (hdigits _)]
  constructor
  · intro heq
    rw [heq]
  · intro heq
    exact (grouped_injective (hdigits _) (hdigits _) heq).symm

theorem verify_refused {s : String} {e : ConnectCodeError} (h : parse s = .error e) :
    (assemble target secret).verify s = true ↔
      normalizeCode s = symbols (assemble target secret).code := by
  rw [ConnectCode.verify, h]
  dsimp only
  rw [verifyCode, beq_iff_eq, assemble_code, normalizeCode_eq_symbols, eq_comm]

/-- A string is accepted if it reads as a code for the same target with the same secret, or if it
reads as no code and its letters and digits are the code's symbols. -/
theorem verify_spelling (target : ConnectTarget) (ht : target.InRange)
    (hs : secret.toNat < 2 ^ secretBits) (s : String) :
    ((assemble target secret).verify s = true ↔
      parse s = .ok (assemble target secret) ∨
        (∃ e, parse s = .error e) ∧ normalizeCode s = symbols (assemble target secret).code) ∧
    ∀ c, parse s = .ok c → ∃ (target' : ConnectTarget) (secret' : UInt32), target'.InRange ∧
      secret'.toNat < 2 ^ secretBits ∧ c = assemble target' secret' ∧
      (c.code = (assemble target secret).code ↔ target' = target ∧ secret' = secret) := by
  have hsame {c : ConnectCode} (hc : parse s = .ok c) :
      ∃ (target' : ConnectTarget) (secret' : UInt32), target'.InRange ∧
        secret'.toNat < 2 ^ secretBits ∧ c = assemble target' secret' ∧
        (c.code = (assemble target secret).code ↔ target' = target ∧ secret' = secret) := by
    obtain ⟨target', secret', ht', hs', rfl⟩ := parse_assembled hc
    refine ⟨target', secret', ht', hs', rfl, assemble_code_injective ht' ht hs' hs, ?_⟩
    rintro ⟨rfl, rfl⟩
    rfl
  refine ⟨?_, fun c => hsame⟩
  cases hparse : parse s with
  | error e => simpa using verify_refused hparse
  | ok c =>
    obtain ⟨target', secret', -, -, rfl, hcode⟩ := hsame hparse
    rw [verify_parsed hparse, hcode]
    constructor
    · rintro ⟨rfl, rfl⟩
      exact Or.inl rfl
    · rintro (heq | ⟨⟨e, he⟩, -⟩)
      · exact hcode.mp (congrArg ConnectCode.code (Except.ok.inj heq))
      · cases he

theorem verify_spelling_lan :
    ((assemble (.lan ⟨0xC0A8000A, 21118⟩) 12345).verify "oOO3 oeeo-n000_mmky" = true ↔
      parse "oOO3 oeeo-n000_mmky" = .ok (assemble (.lan ⟨0xC0A8000A, 21118⟩) 12345) ∨
        (∃ e, parse "oOO3 oeeo-n000_mmky" = .error e) ∧
          normalizeCode "oOO3 oeeo-n000_mmky" =
            symbols (assemble (.lan ⟨0xC0A8000A, 21118⟩) 12345).code) ∧
    ∀ c, parse "oOO3 oeeo-n000_mmky" = .ok c → ∃ (target' : ConnectTarget) (secret' : UInt32),
      target'.InRange ∧ secret'.toNat < 2 ^ secretBits ∧ c = assemble target' secret' ∧
      (c.code = (assemble (.lan ⟨0xC0A8000A, 21118⟩) 12345).code ↔
        target' = .lan ⟨0xC0A8000A, 21118⟩ ∧ secret' = 12345) :=
  verify_spelling (.lan ⟨0xC0A8000A, 21118⟩) trivial (by decide) "oOO3 oeeo-n000_mmky"

/-- Points are not part of any code, and are passed over all the same. -/
theorem dotted_code_is_accepted :
    parse "0003.0EE0.N000.MMKY" = .error .invalidChar ∧
      (assemble (.lan ⟨0xC0A8000A, 21118⟩) 12345).verify "0003.0EE0.N000.MMKY" = true := by
  decide

end Controlis.Security

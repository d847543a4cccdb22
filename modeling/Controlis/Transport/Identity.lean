import Controlis.Foundation.Runs
import Controlis.Transport.Fingerprint

/-!
# The identity on disk

A certificate and its key lie in two files, written one after the other. Every
run of `load_or_generate` that cannot read both makes a new pair, whatever the
reason, and may stop anywhere between opening the first file and closing the
second. Each content carries the number of the run that made it.
-/

namespace Controlis.Transport.Identity

structure Certified where
  cert : List UInt8
  key : List UInt8

structure Crypto where
  certified : ℕ → Certified
  tryKey : List UInt8 → Except String Unit
  sha256 : List UInt8 → Vector UInt8 32

inductive IdentityError
  | certificate (message : String)
  | io (message : String)

structure HostIdentity where
  cert : List UInt8
  key : List UInt8
  fingerprint : Fingerprint

structure Content where
  generation : ℕ
  bytes : List UInt8
deriving DecidableEq

structure Disk where
  cert : Option Content
  key : Option Content
deriving DecidableEq

inductive Reading
  | works
  | fails (message : String)

/-- How far a write gets: not to the open file, to its first `k` bytes, or to the end. -/
inductive Writing
  | refused (message : String)
  | broken (k : ℕ) (message : String)
  | crashed (k : Option ℕ)
  | complete

structure Attempt where
  certRead : Reading
  keyRead : Reading
  generate : Except String Unit
  certWrite : Writing
  keyWrite : Writing

structure Loaded where
  identity : HostIdentity
  certGeneration : ℕ
  keyGeneration : ℕ

inductive Ending
  | crashed
  | failed (error : IdentityError)
  | loaded (l : Loaded)

def readFile (file : Option Content) : Reading → Option Content
  | .works => file
  | .fails _ => none

inductive Wrote
  | done
  | failed (message : String)
  | crashed

def writeFile (file : Option Content) (new : Content) : Writing → Option Content × Wrote
  | .refused message => (file, .failed message)
  | .broken k message => (some { new with bytes := new.bytes.take k }, .failed message)
  | .crashed none => (file, .crashed)
  | .crashed (some k) => (some { new with bytes := new.bytes.take k }, .crashed)
  | .complete => (some new, .done)

variable (c : Crypto)

def certContent (generation : ℕ) : Content := ⟨generation, (c.certified generation).cert⟩

def keyContent (generation : ℕ) : Content := ⟨generation, (c.certified generation).key⟩

def fingerprint (cert : List UInt8) : Fingerprint := .ofDigest (c.sha256 cert)

def load (cert key : Content) : Ending :=
  match c.tryKey key.bytes with
  | .error message => .failed (.certificate message)
  | .ok () => .loaded ⟨⟨cert.bytes, key.bytes, fingerprint c cert.bytes⟩, cert.generation,
      key.generation⟩

def fresh (generation : ℕ) : Loaded :=
  ⟨⟨(c.certified generation).cert, (c.certified generation).key,
    fingerprint c (c.certified generation).cert⟩, generation, generation⟩

def persist (generation : ℕ) (disk : Disk) (a : Attempt) : Disk × Ending :=
  match writeFile disk.cert (certContent c generation) a.certWrite with
  | (cert, .crashed) => (⟨cert, disk.key⟩, .crashed)
  | (cert, .failed message) => (⟨cert, disk.key⟩, .failed (.io message))
  | (cert, .done) =>
    match writeFile disk.key (keyContent c generation) a.keyWrite with
    | (key, .crashed) => (⟨cert, key⟩, .crashed)
    | (key, .failed message) => (⟨cert, key⟩, .failed (.io message))
    | (key, .done) => (⟨cert, key⟩, .loaded (fresh c generation))

def loadOrGenerate (generation : ℕ) (disk : Disk) (a : Attempt) : Disk × Ending :=
  match readFile disk.cert a.certRead, readFile disk.key a.keyRead with
  | some cert, some key => (disk, load c cert key)
  | _, _ =>
    match a.generate with
    | .error message => (disk, .failed (.certificate message))
    | .ok () => persist c generation disk a

def Disk.settled (disk : Disk) : Option ℕ :=
  disk.cert.bind fun cert =>
    if disk = ⟨some (certContent c cert.generation), some (keyContent c cert.generation)⟩ then
      some cert.generation
    else none

def Ending.identities : Ending → List Loaded
  | .loaded l => [l]
  | _ => []

/-- `settled` is the first generation that both files held in full; `later` was returned after. -/
structure History where
  disk : Disk
  runs : ℕ
  settled : Option ℕ
  returned : List Loaded
  later : List Loaded

def History.start : History := ⟨⟨none, none⟩, 0, none, [], []⟩

def step (h : History) (a : Attempt) : History :=
  let (disk, ending) := loadOrGenerate c h.runs h.disk a
  { disk := disk
    runs := h.runs + 1
    settled := h.settled.or (disk.settled c)
    returned := h.returned ++ ending.identities
    later := h.later ++ if h.settled.isSome then ending.identities else [] }

/-- The identity that both files held stays there and is the only one returned from then on. -/
structure Durable (h : History) : Prop where
  kept : ∀ n, h.settled = some n → h.disk = ⟨some (certContent c n), some (keyContent c n)⟩
  same : ∀ n, h.settled = some n → ∀ l ∈ h.later,
    l.identity.fingerprint = fingerprint c (c.certified n).cert
  unmixed : ∀ l ∈ h.returned, l.certGeneration = l.keyGeneration

def Reading.Works : Reading → Prop
  | .works => True
  | .fails _ => False

def Writing.Opens : Writing → Prop
  | .refused _ | .crashed none => False
  | _ => True

def Attempt.Rewrites (a : Attempt) : Prop :=
  ¬(a.certRead.Works ∧ a.keyRead.Works) ∧ a.generate = .ok () ∧ a.certWrite.Opens

def Mixes (disk : Disk) (a : Attempt) : Prop :=
  a.certRead.Works ∧ a.keyRead.Works ∧ ∃ cert key, disk.cert = some cert ∧
    disk.key = some key ∧ cert.generation ≠ key.generation ∧ c.tryKey key.bytes = .ok ()

/-- The run does not write over a settled identity and does not load a mixed one. -/
def Careful (h : History) (a : Attempt) : Prop :=
  (h.settled.isSome → ¬a.Rewrites) ∧ ¬Mixes c h.disk a

variable {c} {disk : Disk} {a : Attempt} {s : History} {g n : ℕ}

theorem settled_eq_some :
    disk.settled c = some n ↔ disk = ⟨some (certContent c n), some (keyContent c n)⟩ := by
  unfold Disk.settled
  constructor
  · intro h
    cases hcert : disk.cert with
    | none => simp [hcert] at h
    | some cert =>
      rw [hcert] at h
      simp only [Option.bind_some] at h
      split_ifs at h with hdisk
      rw [Option.some.inj h] at hdisk
      exact hdisk
  · rintro rfl
    simp [certContent]

theorem writeFile_opens {w : Writing} (h : w.Opens) (file : Option Content) (new : Content) :
    ∃ content, (writeFile file new w).1 = some content ∧
      content.generation = new.generation := by
  cases w with
  | refused => exact absurd h id
  | broken => exact ⟨_, rfl, rfl⟩
  | crashed k =>
    cases k with
    | none => exact absurd h id
    | some => exact ⟨_, rfl, rfl⟩
  | complete => exact ⟨_, rfl, rfl⟩

theorem writeFile_quiet {w : Writing} (h : ¬w.Opens) (file : Option Content) (new : Content) :
    ∃ wrote, writeFile file new w = (file, wrote) ∧ wrote ≠ .done := by
  cases w with
  | refused message => exact ⟨.failed message, rfl, Wrote.noConfusion⟩
  | crashed k =>
    cases k with
    | none => exact ⟨.crashed, rfl, Wrote.noConfusion⟩
    | some => exact absurd trivial h
  | broken => exact absurd trivial h
  | complete => exact absurd trivial h

theorem writeFile_key (w : Writing) (file : Option Content) (new : Content) :
    (writeFile file new w).1 = file ∨ ∃ content, (writeFile file new w).1 = some content ∧
      content.generation = new.generation := by
  by_cases hopens : w.Opens
  · exact Or.inr (writeFile_opens hopens file new)
  · obtain ⟨wrote, hwrite, -⟩ := writeFile_quiet hopens file new
    exact Or.inl (by rw [hwrite])

theorem persist_quiet (c : Crypto) (g : ℕ) (disk : Disk) (h : ¬a.certWrite.Opens) :
    (persist c g disk a).1 = disk ∧ (persist c g disk a).2.identities = [] := by
  obtain ⟨wrote, hwrite, hdone⟩ := writeFile_quiet h disk.cert (certContent c g)
  rw [persist, hwrite]
  cases wrote with
  | done => exact absurd rfl hdone
  | failed message => exact ⟨rfl, rfl⟩
  | crashed => exact ⟨rfl, rfl⟩

/-- What is written comes from this run, and the certificate file comes first. -/
structure Written (g : ℕ) (disk disk' : Disk) : Prop where
  cert : ∃ cert, disk'.cert = some cert ∧ cert.generation = g
  key : disk'.key = disk.key ∨ ∃ key, disk'.key = some key ∧ key.generation = g

theorem persist_opens (c : Crypto) (g : ℕ) (disk : Disk) (h : a.certWrite.Opens) :
    Written g disk (persist c g disk a).1 ∧
      ∀ l ∈ (persist c g disk a).2.identities, l = fresh c g := by
  have hcert := writeFile_opens h disk.cert (certContent c g)
  have hkey := writeFile_key a.keyWrite disk.key (keyContent c g)
  unfold persist
  split
  next cert hwrite =>
    rw [hwrite] at hcert
    exact ⟨⟨hcert, Or.inl rfl⟩, by simp [Ending.identities]⟩
  next cert message hwrite =>
    rw [hwrite] at hcert
    exact ⟨⟨hcert, Or.inl rfl⟩, by simp [Ending.identities]⟩
  next cert hwrite =>
    rw [hwrite] at hcert
    split
    next key hwrite' =>
      rw [hwrite'] at hkey
      exact ⟨⟨hcert, hkey⟩, by simp [Ending.identities]⟩
    next key message hwrite' =>
      rw [hwrite'] at hkey
      exact ⟨⟨hcert, hkey⟩, by simp [Ending.identities]⟩
    next key hwrite' =>
      rw [hwrite'] at hkey
      exact ⟨⟨hcert, hkey⟩, by simp [Ending.identities]⟩

theorem readFile_works {r : Reading} (h : r.Works) (file : Option Content) :
    readFile file r = file := by
  cases r with
  | works => rfl
  | fails => exact absurd h id

theorem readFile_fails {r : Reading} (h : ¬r.Works) (file : Option Content) :
    readFile file r = none := by
  cases r with
  | works => exact absurd trivial h
  | fails => rfl

def Unread (disk : Disk) (a : Attempt) : Prop :=
  ¬(a.certRead.Works ∧ a.keyRead.Works) ∨ disk.cert = none ∨ disk.key = none

theorem loadOrGenerate_unread (c : Crypto) (g : ℕ) (h : Unread disk a) :
    loadOrGenerate c g disk a = match a.generate with
      | .error message => (disk, .failed (.certificate message))
      | .ok () => persist c g disk a := by
  have hnone : readFile disk.cert a.certRead = none ∨ readFile disk.key a.keyRead = none := by
    by_cases hcert : a.certRead.Works
    · by_cases hkey : a.keyRead.Works
      · rw [readFile_works hcert, readFile_works hkey]
        exact h.resolve_left (not_not.mpr ⟨hcert, hkey⟩)
      · exact Or.inr (readFile_fails hkey _)
    · exact Or.inl (readFile_fails hcert _)
  rw [loadOrGenerate]
  rcases hnone with hnone | hnone
  · rw [hnone]
  · rw [hnone]
    cases readFile disk.cert a.certRead <;> rfl

theorem loadOrGenerate_cases (c : Crypto) (g : ℕ) (disk : Disk) (a : Attempt) :
    (∃ cert key, a.certRead.Works ∧ a.keyRead.Works ∧ disk.cert = some cert ∧
        disk.key = some key ∧ loadOrGenerate c g disk a = (disk, load c cert key)) ∨
      (Unread disk a ∧ ¬a.Rewrites ∧
        (loadOrGenerate c g disk a).1 = disk ∧ (loadOrGenerate c g disk a).2.identities = []) ∨
      (Unread disk a ∧ a.generate = .ok () ∧ a.certWrite.Opens ∧
        Written g disk (loadOrGenerate c g disk a).1 ∧
        ∀ l ∈ (loadOrGenerate c g disk a).2.identities, l = fresh c g) := by
  by_cases hunread : Unread disk a
  · have hrun := loadOrGenerate_unread c g hunread
    apply Or.inr
    cases hgenerate : a.generate with
    | error message =>
      rw [hgenerate] at hrun
      refine Or.inl ⟨hunread, fun h => ?_, by rw [hrun], by rw [hrun]; rfl⟩
      have hmade := h.2.1
      rw [hgenerate] at hmade
      cases hmade
    | ok made =>
      rw [hgenerate] at hrun
      dsimp only at hrun
      by_cases hopens : a.certWrite.Opens
      · obtain ⟨hwritten, hfresh⟩ := persist_opens c g disk hopens
        rw [← hrun] at hwritten hfresh
        exact Or.inr ⟨hunread, rfl, hopens, hwritten, hfresh⟩
      · obtain ⟨hdisk, hnone⟩ := persist_quiet c g disk hopens
        rw [← hrun] at hdisk hnone
        exact Or.inl ⟨hunread, fun h => hopens h.2.2, hdisk, hnone⟩
  · rw [Unread, not_or, not_not, not_or] at hunread
    obtain ⟨⟨hcert, hkey⟩, hsome, hsome'⟩ := hunread
    obtain ⟨cert, hc⟩ := Option.ne_none_iff_exists'.mp hsome
    obtain ⟨key, hk⟩ := Option.ne_none_iff_exists'.mp hsome'
    refine Or.inl ⟨cert, key, hcert, hkey, hc, hk, ?_⟩
    rw [loadOrGenerate, readFile_works hcert, readFile_works hkey, hc, hk]

structure Sound (c : Crypto) (h : History) : Prop where
  durable : Durable c h
  cert : ∀ cert, h.disk.cert = some cert → cert.generation < h.runs
  key : ∀ key, h.disk.key = some key → key.generation < h.runs
  unsettled : h.settled = none → h.later = []

theorem Sound.lt (h : Sound c s) (hn : s.settled = some n) : n < s.runs := by
  have hdisk := h.durable.kept n hn
  exact h.cert (certContent c n) (by rw [hdisk])

theorem Mixes.read (h : Mixes c disk a) : ¬Unread disk a := by
  obtain ⟨hcert, hkey, cert, key, hc, hk, -, -⟩ := h
  rw [Unread, hc, hk]
  simp [hcert, hkey]

theorem mem_load {cert key : Content} {l : Loaded} (h : l ∈ (load c cert key).identities) :
    c.tryKey key.bytes = .ok () ∧ l = ⟨⟨cert.bytes, key.bytes, fingerprint c cert.bytes⟩,
      cert.generation, key.generation⟩ := by
  unfold load at h
  cases hkey : c.tryKey key.bytes with
  | error message =>
    rw [hkey] at h
    cases h
  | ok =>
    rw [hkey] at h
    exact ⟨rfl, List.mem_singleton.mp h⟩

theorem load_identities {cert key : Content} (h : c.tryKey key.bytes = .ok ()) :
    (load c cert key).identities = [⟨⟨cert.bytes, key.bytes, fingerprint c cert.bytes⟩,
      cert.generation, key.generation⟩] := by
  rw [load, h]
  rfl

theorem Sound.next (h : Sound c s)
    (hdisk : s.settled.isSome → (loadOrGenerate c s.runs s.disk a).1 = s.disk)
    (hcert : ∀ cert, (loadOrGenerate c s.runs s.disk a).1.cert = some cert →
      cert.generation < s.runs + 1)
    (hkey : ∀ key, (loadOrGenerate c s.runs s.disk a).1.key = some key →
      key.generation < s.runs + 1)
    (hsame : ∀ n, s.settled = some n → ∀ l ∈ (loadOrGenerate c s.runs s.disk a).2.identities,
      l.identity.fingerprint = fingerprint c (c.certified n).cert)
    (hunmixed : ∀ l ∈ (loadOrGenerate c s.runs s.disk a).2.identities,
      l.certGeneration = l.keyGeneration) : Sound c (step c s a) := by
  refine ⟨⟨?_, ?_, ?_⟩, hcert, hkey, ?_⟩
  · intro n hn
    simp only [step] at hn ⊢
    cases hsettled : s.settled with
    | none =>
      rw [hsettled, Option.none_or] at hn
      exact settled_eq_some.mp hn
    | some m =>
      rw [hsettled, Option.some_or] at hn
      cases hn
      rw [hdisk (by rw [hsettled]; rfl)]
      exact h.durable.kept n hsettled
  · intro n hn l hl
    simp only [step] at hn hl
    cases hsettled : s.settled with
    | none =>
      rw [hsettled, h.unsettled hsettled] at hl
      cases hl
    | some m =>
      rw [hsettled, Option.some_or] at hn
      rw [hsettled] at hl
      cases hn
      rcases List.mem_append.mp hl with hl | hl
      · exact h.durable.same n hsettled l hl
      · exact hsame n hsettled l hl
  · intro l hl
    rcases List.mem_append.mp hl with hl | hl
    · exact h.durable.unmixed l hl
    · exact hunmixed l hl
  · intro hnone
    have hsettled : s.settled = none := (Option.or_eq_none_iff.mp hnone).1
    simp only [step, hsettled, h.unsettled hsettled]
    rfl

theorem Sound.next_same (h : Sound c s) (hdisk : (loadOrGenerate c s.runs s.disk a).1 = s.disk)
    (hsame : ∀ n, s.settled = some n → ∀ l ∈ (loadOrGenerate c s.runs s.disk a).2.identities,
      l.identity.fingerprint = fingerprint c (c.certified n).cert)
    (hunmixed : ∀ l ∈ (loadOrGenerate c s.runs s.disk a).2.identities,
      l.certGeneration = l.keyGeneration) : Sound c (step c s a) := by
  apply h.next (fun _ => hdisk) _ _ hsame hunmixed
  · intro cert hcert
    rw [hdisk] at hcert
    exact (h.cert cert hcert).trans (Nat.lt_succ_self _)
  · intro key hkey
    rw [hdisk] at hkey
    exact (h.key key hkey).trans (Nat.lt_succ_self _)

theorem step_sound (h : Sound c s) (hok : Careful c s a) : Sound c (step c s a) := by
  rcases loadOrGenerate_cases c s.runs s.disk a with
    ⟨cert, key, hcertRead, hkeyRead, hcert, hkey, hrun⟩ | ⟨-, -, hdisk, hnone⟩ |
    ⟨hunread, hmade, hopens, hwritten, hfresh⟩
  · apply h.next_same
    · rw [hrun]
    · intro n hn l hl
      rw [hrun] at hl
      rw [(mem_load hl).2]
      rw [h.durable.kept n hn] at hcert
      cases hcert
      rfl
    · intro l hl
      rw [hrun] at hl
      obtain ⟨hkeyOk, rfl⟩ := mem_load hl
      by_contra hne
      exact hok.2 ⟨hcertRead, hkeyRead, cert, key, hcert, hkey, hne, hkeyOk⟩
  · apply h.next_same hdisk
    · intro n _ l hl
      rw [hnone] at hl
      cases hl
    · intro l hl
      rw [hnone] at hl
      cases hl
  · -- a settled pair is there to be read, so a run that writes had nothing settled
    have hsettled : s.settled = none := by
      by_contra hne
      obtain ⟨n, hn⟩ := Option.ne_none_iff_exists'.mp hne
      have hreads : ¬(a.certRead.Works ∧ a.keyRead.Works) := by
        rw [Unread, h.durable.kept n hn] at hunread
        simpa using hunread
      exact hok.1 (by rw [hn]; rfl) ⟨hreads, hmade, hopens⟩
    apply h.next
    · intro hsome
      rw [hsettled] at hsome
      cases hsome
    · intro cert hcert
      obtain ⟨cert', hcert', hgeneration⟩ := hwritten.cert
      rw [hcert'] at hcert
      cases hcert
      omega
    · intro key hkey
      rcases hwritten.key with hold | ⟨key', hkey', hgeneration⟩
      · exact (h.key key (hold ▸ hkey)).trans (Nat.lt_succ_self _)
      · rw [hkey'] at hkey
        cases hkey
        omega
    · intro n hn
      rw [hsettled] at hn
      cases hn
    · intro l hl
      rw [hfresh l hl]
      rfl

theorem careful_of_durable (h : Sound c s) (hnext : Durable c (step c s a)) : Careful c s a := by
  rcases loadOrGenerate_cases c s.runs s.disk a with
    ⟨cert, key, hcertRead, hkeyRead, hcert, hkey, hrun⟩ | ⟨hunread, hquiet, -, -⟩ |
    ⟨hunread, hmade, hopens, hwritten, -⟩
  · refine ⟨fun _ hrewrites => hrewrites.1 ⟨hcertRead, hkeyRead⟩, ?_⟩
    rintro ⟨-, -, cert', key', hcert', hkey', hne, hkeyOk⟩
    rw [hcert] at hcert'
    rw [hkey] at hkey'
    cases hcert'
    cases hkey'
    have hmem : (⟨⟨cert.bytes, key.bytes, fingerprint c cert.bytes⟩, cert.generation,
        key.generation⟩ : Loaded) ∈ (step c s a).returned := by
      simp only [step, hrun, load_identities hkeyOk]
      exact List.mem_append_right _ (List.mem_singleton.mpr rfl)
    exact hne (hnext.unmixed _ hmem)
  · exact ⟨fun _ => hquiet, fun hmixes => hmixes.read hunread⟩
  · refine ⟨fun hsome _ => ?_, fun hmixes => hmixes.read hunread⟩
    obtain ⟨n, hn⟩ := Option.isSome_iff_exists.mp hsome
    have hsettled : (step c s a).settled = some n := by
      simp only [step, hn, Option.some_or]
    obtain ⟨cert, hcert, hgeneration⟩ := hwritten.cert
    have hkept : (step c s a).disk.cert = some (certContent c n) := by
      rw [hnext.kept n hsettled]
    have hsame : cert = certContent c n := Option.some.inj (hcert.symm.trans hkept)
    have hlt := h.lt hn
    rw [hsame, certContent] at hgeneration
    exact absurd hgeneration hlt.ne

theorem start_sound (c : Crypto) : Sound c .start := by
  refine ⟨⟨?_, ?_, ?_⟩, ?_, ?_, fun _ => rfl⟩
  · intro n hn
    cases hn
  · intro n hn
    cases hn
  · intro l hl
    cases hl
  · intro cert hcert
    cases hcert
  · intro key hkey
    cases hkey

/-- The identity is durable in all of a run exactly when every step is careful. -/
theorem identity_durable_iff (c : Crypto) (attempts : List Attempt) :
    Runs.Meets (step c) (Careful c) .start attempts ↔
      ∀ before, before <+: attempts → Durable c (before.foldl (step c) .start) :=
  Runs.meets_iff (start_sound c) (fun _ h => h.durable) (fun _ _ h hok => step_sound h hok)
    fun _ _ h hnext => careful_of_durable h hnext

structure Paired (disk : Disk) : Prop where
  cert : disk.cert = none → disk.key = none
  same : ∀ cert key, disk.cert = some cert → disk.key = some key →
    cert.generation = key.generation

theorem step_paired (h : Paired s.disk) (hcert : a.certRead.Works) (hkey : a.keyRead.Works) :
    Careful c s a ∧ Paired (step c s a).disk := by
  have hcareful : Careful c s a := by
    refine ⟨fun _ hrewrites => hrewrites.1 ⟨hcert, hkey⟩, ?_⟩
    rintro ⟨-, -, cert, key, hc, hk, hne, -⟩
    exact hne (h.same cert key hc hk)
  refine ⟨hcareful, ?_⟩
  change Paired (loadOrGenerate c s.runs s.disk a).1
  rcases loadOrGenerate_cases c s.runs s.disk a with
    ⟨_, _, -, -, -, -, hrun⟩ | ⟨-, -, hdisk, -⟩ | ⟨hunread, -, -, hwritten, -⟩
  · rw [hrun]
    exact h
  · rw [hdisk]
    exact h
  · obtain ⟨cert, hc, hgeneration⟩ := hwritten.cert
    have hnone : s.disk.key = none := by
      rcases hunread with hreads | hnone | hnone
      · exact absurd ⟨hcert, hkey⟩ hreads
      · exact h.cert hnone
      · exact hnone
    refine ⟨fun hmissing => ?_, fun cert' key' hc' hk' => ?_⟩
    · rw [hc] at hmissing
      cases hmissing
    · rw [hc] at hc'
      cases hc'
      rcases hwritten.key with hold | ⟨key, hk, hgeneration'⟩
      · rw [hold, hnone] at hk'
        cases hk'
      · rw [hk] at hk'
        cases hk'
        rw [hgeneration, hgeneration']

theorem durable_of_reads (c : Crypto) (attempts : List Attempt)
    (h : ∀ a ∈ attempts, a.certRead.Works ∧ a.keyRead.Works) :
    Durable c (attempts.foldl (step c) .start) := by
  have hrun : ∀ s, Sound c s → Paired s.disk → Sound c (attempts.foldl (step c) s) := by
    induction attempts with
    | nil => exact fun _ hs _ => hs
    | cons a attempts ih =>
      intro s hs hpaired
      obtain ⟨hcert, hkey⟩ := h a List.mem_cons_self
      obtain ⟨hcareful, hnext⟩ := step_paired (c := c) hpaired hcert hkey
      exact ih (fun b hb => h b (List.mem_cons_of_mem _ hb)) _ (step_sound hs hcareful) hnext
  have hstart : Paired History.start.disk := by
    refine ⟨fun _ => rfl, fun cert _ hcert => ?_⟩
    cases hcert
  exact (hrun _ (start_sound c) hstart).durable

def sampleCrypto : Crypto where
  certified n := ⟨[0x30, .ofNat n], [0x30, .ofNat n]⟩
  tryKey key := if key = [] then .error "unknown or invalid key format" else .ok ()
  sha256 der := Vector.ofFn fun i => der.getD i 0

def undisturbed : Attempt := ⟨.works, .works, .ok (), .complete, .complete⟩

/-- The key is not read, and the process dies between the two writes. -/
def keyUnread : Attempt := ⟨.works, .fails "too many open files", .ok (), .complete, .crashed none⟩

def afterUnread : History :=
  [undisturbed, undisturbed, keyUnread, undisturbed].foldl (step sampleCrypto) .start

/-- One failed read replaces the certificate, and then it is returned with the old key. -/
theorem unread_key_replaces_identity :
    afterUnread.settled = some 0 ∧
    afterUnread.disk = ⟨some (certContent sampleCrypto 2), some (keyContent sampleCrypto 0)⟩ ∧
    afterUnread.later.map (fun l => (l.certGeneration, l.keyGeneration)) = [(0, 0), (2, 0)] ∧
    ¬∀ (c : Crypto) (attempts : List Attempt), Durable c (attempts.foldl (step c) .start) := by
  have hsettled : afterUnread.settled = some 0 := by decide
  have hdisk : afterUnread.disk =
      ⟨some (certContent sampleCrypto 2), some (keyContent sampleCrypto 0)⟩ := by decide
  refine ⟨hsettled, hdisk, by decide, ?_⟩
  intro h
  have hkept := (h sampleCrypto [undisturbed, undisturbed, keyUnread, undisturbed]).kept 0 hsettled
  exact absurd (hdisk.symm.trans hkept) (by decide)

end Controlis.Transport.Identity

import Mathlib.Data.List.Dedup

/-!
The certificate chains of `loadCertificates`. From the signer, each certificate is followed
by the certificate whose subject is its issuer, found in a map from subjects to
certificates; when the chain ends, the same is done once from the counter-signer. A
certificate found in the map is erased from it, so the loop ends whatever the issuer graph,
cycles included, and adds no certificate twice.
-/
namespace PeFormat

/-- Modelled from the spec: `Certificate` is not in the sources; a certificate is its subject
and its issuer name as `X509_NAME_oneline` writes them (`getRawIssuer` for the issuer). -/
structure Certificate where
  subject : String
  issuer : String
  deriving DecidableEq, Repr, Inhabited

/-- `std::unordered_map<std::string, X509*>` from subjects to certificates, given by their
positions in `certs`: a subject has at most one entry. -/
structure SubjectMap where
  entries : List (String × Nat)
  nodup : (entries.map Prod.fst).Nodup

namespace SubjectMap

def empty : SubjectMap := ⟨[], List.nodup_nil⟩

@[simp] theorem empty_entries : empty.entries = [] := rfl

def find (m : SubjectMap) (subject : String) : Option Nat :=
  (m.entries.find? (·.1 == subject)).map Prod.snd

theorem filter_keys_nodup (m : SubjectMap) (subject : String) :
    ((m.entries.filter (·.1 != subject)).map Prod.fst).Nodup :=
  ((List.filter_sublist _).map _).nodup m.nodup

/-- `subjectToCert.erase(itr)`, for the entry of `subject`. -/
def erase (m : SubjectMap) (subject : String) : SubjectMap :=
  ⟨m.entries.filter (·.1 != subject), m.filter_keys_nodup subject⟩

/-- `subjectToCert[subject] = cert`. -/
def insert (m : SubjectMap) (subject : String) (cert : Nat) : SubjectMap :=
  ⟨(subject, cert) :: m.entries.filter (·.1 != subject),
    List.nodup_cons.2 ⟨by simp [List.mem_filter], m.filter_keys_nodup subject⟩⟩

def values (m : SubjectMap) : List Nat := m.entries.map Prod.snd

theorem mem_of_find {m : SubjectMap} {subject : String} {x : Nat}
    (h : m.find subject = some x) : (subject, x) ∈ m.entries := by
  obtain ⟨e, he, rfl⟩ := Option.map_eq_some'.mp h
  have key : e.1 = subject := by simpa using List.find?_some he
  exact key ▸ List.mem_of_find?_eq_some he

theorem erase_length_lt {m : SubjectMap} {subject : String} {x : Nat}
    (h : (subject, x) ∈ m.entries) : (m.erase subject).entries.length < m.entries.length :=
  List.length_filter_lt_length_iff_exists.2 ⟨_, h, by simp⟩

theorem erase_values_sublist (m : SubjectMap) (subject : String) :
    List.Sublist (m.erase subject).values m.values :=
  (List.filter_sublist _).map _

theorem not_mem_erase_values {m : SubjectMap} {subject : String} {x : Nat}
    (hv : m.values.Nodup) (h : (subject, x) ∈ m.entries) : x ∉ (m.erase subject).values := by
  simp only [values, erase, List.mem_map, List.mem_filter, bne_iff_ne, ne_eq, not_exists, not_and]
  intro e he hx
  exact he.2 (Prod.ext_iff.mp (List.inj_on_of_nodup_map hv he.1 h hx)).1

end SubjectMap

/-- The loop that fills `subjectToCert`, from certificate `j` of `certs` on. -/
def fillSubjectMap (m : SubjectMap) (j : Nat) : List Certificate → SubjectMap
  | [] => m
  | cert :: certs => fillSubjectMap (m.insert cert.subject j) (j + 1) certs

structure ChainState where
  subjectToCert : SubjectMap
  nextIssuer : String
  counterChain : Bool
  /-- The certificates added to `certificateTable`, by their positions in `certs`. -/
  table : List Nat
  signerIndex : Option Nat
  counterSignerIndex : Option Nat

section Chain

variable (certs : List Certificate) (signer counterSigner : Option (Fin certs.length))

def certAt (x : Nat) : Certificate := certs.getD x default

def initialChain : ChainState where
  subjectToCert := fillSubjectMap .empty 0 certs
  nextIssuer := match signer with
    | some i => (certs.get i).subject
    | none => ""
  counterChain := false
  table := []
  signerIndex := none
  counterSignerIndex := none

/-- The loop condition. -/
def chainContinues (s : ChainState) : Bool :=
  !s.nextIssuer.isEmpty || (!s.counterChain && counterSigner.isSome)

/-- One turn of the loop body; `none` is `break`. -/
def chainStep (s : ChainState) : Option ChainState :=
  match s.subjectToCert.find s.nextIssuer with
  | none =>
    match s.counterChain, counterSigner with
    | false, some c => some { s with nextIssuer := (certs.get c).subject, counterChain := true }
    | _, _ => none
  | some x =>
    let table := s.table ++ [x]
    some
      { subjectToCert := s.subjectToCert.erase s.nextIssuer
        nextIssuer := (certAt certs x).issuer
        counterChain := s.counterChain
        table := table
        signerIndex :=
          if signer.map Fin.val = some x then some (table.length - 1) else s.signerIndex
        counterSignerIndex :=
          if signer.map Fin.val = some x then s.counterSignerIndex
          else if counterSigner.map Fin.val = some x then some (table.length - 1)
          else s.counterSignerIndex }

/-- The `while` loop with `fuel` turns of its body allowed; `none` when they run out. -/
def chainLoop : Nat → ChainState → Option ChainState
  | 0, s => if chainContinues certs counterSigner s then none else some s
  | fuel + 1, s =>
    if chainContinues certs counterSigner s then
      match chainStep certs signer counterSigner s with
      | none => some s
      | some s' => chainLoop fuel s'
    else some s

/-! ## What one turn does -/

def chainMeasure (s : ChainState) : Nat :=
  s.subjectToCert.entries.length + if s.counterChain then 0 else 1

structure ChainInv (s : ChainState) : Prop where
  values_nodup : s.subjectToCert.values.Nodup
  table_nodup : s.table.Nodup
  disjoint : ∀ x ∈ s.table, x ∉ s.subjectToCert.values

/-! ## The map of subjects -/

theorem fillSubjectMap_inv (subjects : List String) :
    ∀ {m : SubjectMap} {j : Nat} {rest : List Certificate}, m.values.Nodup →
      (∀ v ∈ m.values, v < j) → (∀ e ∈ m.entries, e.1 ∈ subjects) →
      (∀ c ∈ rest, c.subject ∈ subjects) →
      (fillSubjectMap m j rest).values.Nodup ∧
        ∀ e ∈ (fillSubjectMap m j rest).entries, e.1 ∈ subjects
  | _, _, [], hv, _, hk, _ => ⟨hv, hk⟩
  | m, j, c :: rest, hv, hlt, hk, hc => by
    rw [fillSubjectMap]
    have sub := SubjectMap.erase_values_sublist m c.subject
    refine fillSubjectMap_inv subjects ?_ ?_ ?_ fun c' h' => hc c' (List.mem_cons_of_mem _ h')
    · refine List.nodup_cons.2 ⟨fun hj => ?_, sub.nodup hv⟩
      exact Nat.lt_irrefl j (hlt j (sub.subset hj))
    · intro v hv'
      rcases List.mem_cons.1 hv' with rfl | hv'
      · exact Nat.lt_succ_self _
      · exact Nat.lt_succ_of_lt (hlt v (sub.subset hv'))
    · intro e he
      rcases List.mem_cons.1 he with rfl | he
      · exact hc c (List.mem_cons_self _ _)
      · exact hk e (List.mem_filter.1 he).1

theorem initialChain_inv : ChainInv (initialChain certs signer) :=
  ⟨(fillSubjectMap_inv (certs.map (·.subject)) (m := .empty) (j := 0) List.nodup_nil
      (by simp [SubjectMap.values]) (by simp) fun c hc => List.mem_map_of_mem _ hc).1,
    List.nodup_nil, by simp [initialChain]⟩

theorem initialChain_measure :
    chainMeasure (initialChain certs signer) ≤ (certs.map (·.subject)).dedup.length + 1 := by
  have keys := (fillSubjectMap_inv (certs.map (·.subject)) (m := .empty) (j := 0)
    List.nodup_nil (by simp [SubjectMap.values]) (by simp)
    fun c hc => List.mem_map_of_mem _ hc).2
  have sub : List.Subperm ((fillSubjectMap .empty 0 certs).entries.map Prod.fst)
      (certs.map (·.subject)).dedup :=
    List.subperm_of_subset (fillSubjectMap .empty 0 certs).nodup fun k hk => by
      obtain ⟨e, he, rfl⟩ := List.mem_map.1 hk
      exact List.mem_dedup.2 (keys e he)
  have := sub.length_le
  simp only [List.length_map] at this
  simp only [chainMeasure, initialChain, Bool.false_eq_true, if_false]
  omega

variable {certs signer counterSigner}

theorem chainStep_cases {s s' : ChainState}
    (h : chainStep certs signer counterSigner s = some s') :
    (s.counterChain = false ∧ s'.counterChain = true ∧ s'.subjectToCert = s.subjectToCert ∧
        s'.table = s.table) ∨
      ∃ x, (s.nextIssuer, x) ∈ s.subjectToCert.entries ∧
        s'.subjectToCert = s.subjectToCert.erase s.nextIssuer ∧ s'.table = s.table ++ [x] ∧
        s'.counterChain = s.counterChain := by
  unfold chainStep at h
  cases hf : s.subjectToCert.find s.nextIssuer with
  | none =>
    rw [hf] at h
    cases hc : s.counterChain <;> cases counterSigner <;> simp only [hc] at h <;> cases h
    exact .inl ⟨rfl, rfl, rfl, rfl⟩
  | some x =>
    rw [hf] at h
    cases h
    exact .inr ⟨x, SubjectMap.mem_of_find hf, rfl, rfl, rfl⟩

theorem chainStep_measure {s s' : ChainState}
    (h : chainStep certs signer counterSigner s = some s') :
    chainMeasure s' < chainMeasure s := by
  rcases chainStep_cases h with ⟨hc, hc', hm, -⟩ | ⟨x, hx, hm, -, hc⟩
  · simp [chainMeasure, hc, hc', hm]
  · have := SubjectMap.erase_length_lt hx
    simp only [chainMeasure, hm, hc]
    omega

theorem chainStep_inv {s s' : ChainState} (inv : ChainInv s)
    (h : chainStep certs signer counterSigner s = some s') : ChainInv s' := by
  rcases chainStep_cases h with ⟨-, -, hm, ht⟩ | ⟨x, hx, hm, ht, -⟩
  · exact ⟨hm ▸ inv.values_nodup, ht ▸ inv.table_nodup, hm ▸ ht ▸ inv.disjoint⟩
  · have sub := SubjectMap.erase_values_sublist s.subjectToCert s.nextIssuer
    have fresh : x ∉ s.table := fun hm' =>
      inv.disjoint x hm' (List.mem_map.2 ⟨_, hx, rfl⟩)
    refine ⟨hm ▸ sub.nodup inv.values_nodup, ht ▸ ?_, fun y hy => hm ▸ ?_⟩
    · exact List.nodup_append.2 ⟨inv.table_nodup, List.nodup_singleton x,
        List.disjoint_singleton.2 fresh⟩
    · rw [ht, List.mem_append, List.mem_singleton] at hy
      rcases hy with hy | rfl
      · exact fun hm' => inv.disjoint y hy (sub.subset hm')
      · exact SubjectMap.not_mem_erase_values inv.values_nodup hx

theorem chainLoop_finishes {fuel : Nat} {s : ChainState} (inv : ChainInv s)
    (budget : chainMeasure s + 1 ≤ fuel) :
    ∃ final, chainLoop certs signer counterSigner fuel s = some final ∧ ChainInv final := by
  induction fuel generalizing s with
  | zero => omega
  | succ fuel ih =>
    rw [chainLoop]
    split
    · split
      · exact ⟨s, rfl, inv⟩
      · rename_i s' hs'
        exact ih (chainStep_inv inv hs') (by have := chainStep_measure hs'; omega)
    · exact ⟨s, rfl, inv⟩

end Chain

theorem loadCertificates_chain_bounded (certs : List Certificate)
    (signer counterSigner : Option (Fin certs.length)) :
    ∃ final, chainLoop certs signer counterSigner ((certs.map (·.subject)).dedup.length + 2)
      (initialChain certs signer) = some final ∧ final.table.Nodup := by
  obtain ⟨final, h, inv⟩ := @chainLoop_finishes certs signer counterSigner
    ((certs.map (·.subject)).dedup.length + 2)
    (initialChain certs signer) (initialChain_inv certs signer)
    (by have := initialChain_measure certs signer; omega)
  exact ⟨final, h, inv.table_nodup⟩

/-- Two certificates that issue each other: the chain from the first adds both and stops. -/
example :
    (chainLoop [⟨"A", "B"⟩, ⟨"B", "A"⟩] (some ⟨0, by decide⟩) none 4
      (initialChain [⟨"A", "B"⟩, ⟨"B", "A"⟩] (some ⟨0, by decide⟩))).map (·.table) = some [0, 1] := by
  decide

end PeFormat

import Motohs.Imgtool.Verify

/-! Which files `verify` accepts, whoever has written them. -/

namespace Motohs.Imgtool

open Lib

/-- The TLVs that the loop meets from one offset to another, each of which begins before
the end of the area. -/
inductive Chain (native : ByteOrder) (b : Bytes) (tlvEnd : Nat) : Nat → List (Nat × Bytes) → Nat → Prop where
  | stop : Chain native b tlvEnd tlvOff [] tlvOff
  | next (inside : tlvOff < tlvEnd)
      (header : structUnpack native [.B, .B, .H] ((b.drop tlvOff).take tlvSize) = .ok [tlvType, filler, tlvLen])
      (rest : Chain native b tlvEnd (tlvOff + (tlvSize + tlvLen)) tlvs final) :
      Chain native b tlvEnd tlvOff ((tlvType, (b.drop (tlvOff + tlvSize)).take tlvLen) :: tlvs) final

/-- How the loop comes to a result: the first TLV that decides is the last that it
meets. -/
inductive Outcome (judge : Nat → Bytes → Except Raised (Option VerifyResult)) (tlvEnd final : Nat) :
    List (Nat × Bytes) → VerifyResult → Prop where
  | exhausted (beyond : tlvEnd ≤ final) : Outcome judge tlvEnd final [] .invalidSignature
  | decided (here : judge tlv.1 tlv.2 = .ok (some result)) : Outcome judge tlvEnd final [tlv] result
  | passed (here : judge tlv.1 tlv.2 = .ok none) (rest : Outcome judge tlvEnd final tlvs result) :
      Outcome judge tlvEnd final (tlv :: tlvs) result

theorem unpack_tlv (unpacked : structUnpack native [.B, .B, .H] bytes = .ok values) :
    ∃ tlvType filler tlvLen, values = [tlvType, filler, tlvLen] := by
  obtain ⟨_, rfl⟩ := unpack_eq_some_iff.mp (structUnpack_eq_ok_iff.mp unpacked)
  exact ⟨_, _, _, rfl⟩

section Loop

variable {crypto : Cryptography} {native : ByteOrder} {b : Bytes} {key : Option Key}
variable {version : SemiSemVersion} {payload digest : Bytes}

/-- The loop meets one TLV after the other, and ends with the first that decides. -/
theorem verifyTlvs_eq_ok_iff :
    verifyTlvs crypto native b key version payload digest tlvEnd tlvOff = .ok result ↔
      ∃ tlvs final, Chain native b tlvEnd tlvOff tlvs final ∧
        Outcome (judgeTlv crypto key version payload digest) tlvEnd final tlvs result := by
  induction left : tlvEnd - tlvOff using Nat.strong_induction_on generalizing tlvOff with
  | h left ih =>
  subst left
  rw [verifyTlvs]
  by_cases inside : tlvOff < tlvEnd
  · have shorter (tlvLen : Nat) : tlvEnd - (tlvOff + (tlvSize + tlvLen)) < tlvEnd - tlvOff := by
      simp only [tlvSize]
      omega
    rw [if_pos inside, bind_eq_ok_iff]
    constructor
    · rintro ⟨values, header, looked⟩
      obtain ⟨tlvType, filler, tlvLen, rfl⟩ := unpack_tlv header
      obtain ⟨verdict, judged, after⟩ := bind_eq_ok_iff.mp looked
      cases verdict with
      | some here =>
        cases after
        exact ⟨_, _, .next inside header .stop, .decided judged⟩
      | none =>
        obtain ⟨tlvs, final, chain, outcome⟩ := (ih _ (shorter tlvLen) rfl).mp after
        exact ⟨_, final, .next inside header chain, .passed judged outcome⟩
    · rintro ⟨_, final, chain, outcome⟩
      cases chain with
      | stop =>
        cases outcome with
        | exhausted beyond => exact absurd inside (Nat.not_lt.mpr beyond)
      | next _ header chain =>
        refine ⟨_, header, bind_eq_ok_iff.mpr ?_⟩
        cases outcome with
        | decided here => exact ⟨_, here, rfl⟩
        | passed here rest => exact ⟨_, here, (ih _ (shorter _) rfl).mpr ⟨_, _, chain, rest⟩⟩
  · rw [if_neg inside]
    constructor
    · intro done
      cases done
      exact ⟨[], _, .stop, .exhausted (Nat.le_of_not_lt inside)⟩
    · rintro ⟨_, _, chain, outcome⟩
      cases chain with
      | stop =>
        cases outcome with
        | exhausted _ => rfl
      | next here => exact absurd here inside

/-- A TLV with a hash decides against it, or for it where there is no key. -/
theorem judgeTlv_hash : judgeTlv crypto key version payload digest TlvKind.sha256.value value =
    .ok (if digest = value then key.elim (some (.ok version digest)) fun _ => none else some .invalidHash) := by
  unfold judgeTlv
  rw [if_pos rfl]
  by_cases same : digest = value
  · rw [if_pos same, if_pos same]
    cases key <;> rfl
  · rw [if_neg same, if_neg same]

/-- Without a key no other TLV matters. -/
theorem judgeTlv_other (other : tlvType ≠ TlvKind.sha256.value) :
    judgeTlv crypto none version payload digest tlvType value = .ok none := by
  unfold judgeTlv
  rw [if_neg other]

/-- With a key that can sign, a TLV of its kind decides for it. -/
theorem judgeTlv_keyed {key : Key} (other : tlvType ≠ TlvKind.sha256.value) (tagged : key.sigTlv = some kind) :
    judgeTlv crypto (some key) version payload digest tlvType value =
      if tlvType = kind.value then (key.verify crypto value payload digest).map fun valid =>
        if valid then some (.ok version digest) else none
      else .ok none := by
  unfold judgeTlv
  rw [if_neg other]
  simp only [tagged]
  rfl

theorem sigTlv_ne_sha256 {key : Key} (tagged : key.sigTlv = some kind) :
    kind.value ≠ TlvKind.sha256.value := by
  unfold Key.sigTlv at tagged
  split at tagged <;> cases tagged <;> decide

/-- What the TLVs must be for `OK`: without a key the first hash is the right one, with a
key no hash is wrong and the first signature that the key takes is the last TLV. -/
def Accepts (crypto : Cryptography) (payload : Bytes) (front : List (Nat × Bytes)) (last : Nat × Bytes) :
    Option Key → Prop
  | none => (∀ tlv ∈ front, tlv.1 ≠ TlvKind.sha256.value) ∧
      last = (TlvKind.sha256.value, crypto.sha256 payload)
  | some key => ∃ kind, key.sigTlv = some kind ∧
      (∀ tlv ∈ front, tlv.1 = TlvKind.sha256.value → tlv.2 = crypto.sha256 payload) ∧
      (∀ tlv ∈ front, tlv.1 = kind.value →
        key.verify crypto tlv.2 payload (crypto.sha256 payload) = .ok false) ∧
      last.1 = kind.value ∧ key.verify crypto last.2 payload (crypto.sha256 payload) = .ok true

theorem map_verdict_eq_ok_iff {verdict : Except Raised Bool} {accepted : VerifyResult}
    {result : Option VerifyResult} :
    verdict.map (fun valid => if valid then some accepted else none) = .ok result ↔
      verdict = .ok true ∧ result = some accepted ∨ verdict = .ok false ∧ result = none := by
  cases verdict with
  | error raised => simp [Except.map]
  | ok valid => cases valid <;> simp [Except.map, eq_comm]

theorem judgeTlv_bare_pass_iff : judgeTlv crypto none version payload digest tlvType value = .ok none ↔
    tlvType ≠ TlvKind.sha256.value := by
  by_cases hash : tlvType = TlvKind.sha256.value
  · rw [hash, judgeTlv_hash]
    split <;> simp
  · simp [judgeTlv_other hash, hash]

theorem judgeTlv_bare_accept_iff :
    judgeTlv crypto none version payload digest tlvType value = .ok (some (.ok accepted shown)) ↔
      tlvType = TlvKind.sha256.value ∧ digest = value ∧ version = accepted ∧ digest = shown := by
  by_cases hash : tlvType = TlvKind.sha256.value
  · rw [hash, judgeTlv_hash]
    by_cases same : digest = value <;> simp [same]
  · simp [judgeTlv_other hash, hash]

theorem judgeTlv_keyed_pass_iff {key : Key} (tagged : key.sigTlv = some kind) :
    judgeTlv crypto (some key) version payload digest tlvType value = .ok none ↔
      (tlvType = TlvKind.sha256.value → value = digest) ∧
        (tlvType = kind.value → key.verify crypto value payload digest = .ok false) := by
  have apart := sigTlv_ne_sha256 tagged
  by_cases hash : tlvType = TlvKind.sha256.value
  · rw [hash, judgeTlv_hash]
    by_cases same : digest = value <;> simp [same, apart.symm, eq_comm]
  · rw [judgeTlv_keyed hash tagged]
    by_cases signature : tlvType = kind.value
    · rw [if_pos signature, map_verdict_eq_ok_iff]
      simp [signature, apart]
    · simp [hash, signature]

theorem judgeTlv_keyed_accept_iff {key : Key} (tagged : key.sigTlv = some kind) :
    judgeTlv crypto (some key) version payload digest tlvType value = .ok (some (.ok accepted shown)) ↔
      tlvType = kind.value ∧ key.verify crypto value payload digest = .ok true ∧
        version = accepted ∧ digest = shown := by
  have apart := sigTlv_ne_sha256 tagged
  by_cases hash : tlvType = TlvKind.sha256.value
  · rw [hash, judgeTlv_hash]
    by_cases same : digest = value <;> simp [same, apart.symm]
  · rw [judgeTlv_keyed hash tagged]
    by_cases signature : tlvType = kind.value
    · rw [if_pos signature, map_verdict_eq_ok_iff]
      simp [signature, eq_comm]
    · simp [signature]

/-- A key whose signatures have no kind accepts nothing. -/
theorem judgeTlv_untagged {key : Key} (untagged : key.sigTlv = none) :
    judgeTlv crypto (some key) version payload digest tlvType value ≠ .ok (some (.ok accepted shown)) := by
  unfold judgeTlv
  simp only [untagged]
  split
  · split <;> simp
  · simp

/-- A result that a TLV decides is decided by the last one met. -/
theorem outcome_decided_iff {judge : Nat → Bytes → Except Raised (Option VerifyResult)}
    (decisive : result ≠ .invalidSignature) : Outcome judge tlvEnd final tlvs result ↔
      ∃ front last, tlvs = front ++ [last] ∧ (∀ tlv ∈ front, judge tlv.1 tlv.2 = .ok none) ∧
        judge last.1 last.2 = .ok (some result) := by
  constructor
  · intro outcome
    induction outcome with
    | exhausted _ => exact absurd rfl decisive
    | decided here => exact ⟨[], _, rfl, by simp, here⟩
    | passed here _ ih =>
      obtain ⟨front, last, rfl, passed, accepted⟩ := ih decisive
      exact ⟨_ :: front, last, rfl, by simpa [here] using passed, accepted⟩
  · rintro ⟨front, last, rfl, passed, accepted⟩
    induction front with
    | nil => exact .decided accepted
    | cons first front ih =>
      obtain ⟨here, later⟩ := List.forall_mem_cons.mp passed
      exact .passed here (ih later)

theorem outcome_accepts_iff :
    Outcome (judgeTlv crypto key version payload (crypto.sha256 payload)) tlvEnd final tlvs
        (.ok accepted shown) ↔
      ∃ front last, tlvs = front ++ [last] ∧ Accepts crypto payload front last key ∧
        accepted = version ∧ shown = crypto.sha256 payload := by
  rw [outcome_decided_iff (by simp)]
  apply exists_congr
  intro front
  apply exists_congr
  rintro ⟨tlvType, value⟩
  apply and_congr_right'
  cases key with
  | none =>
    simp only [judgeTlv_bare_pass_iff, judgeTlv_bare_accept_iff, Accepts, Prod.mk.injEq]
    grind
  | some key =>
    cases tagged : key.sigTlv with
    | none => simp [judgeTlv_untagged tagged, Accepts, tagged]
    | some kind =>
      simp only [judgeTlv_keyed_pass_iff tagged, judgeTlv_keyed_accept_iff tagged, Accepts, tagged,
        Option.some.injEq, exists_eq_left']
      grind

end Loop

/-- Exactly the files `verify` accepts: a header with the magic number, an area of TLVs
past the protected one, and TLVs in it that speak for all that is in front of it. -/
theorem verify_eq_accept_iff : verify crypto native key b = .ok (.ok version digest) ↔
    ∃ header tlvOff tlvTot front last final,
      readHeader native b = .ok header ∧ header.magic = imageMagic ∧
      findArea native b (header.headerSize + header.imgSize) = .ok (tlvOff, tlvInfoMagic, tlvTot) ∧
      Chain native b (tlvOff + tlvTot) (tlvOff + tlvInfoSize) (front ++ [last]) final ∧
      Accepts crypto (b.take tlvOff) front last key ∧
      version = header.version ∧ digest = crypto.sha256 (b.take tlvOff) := by
  rw [verify, bind_eq_ok_iff]
  constructor
  · rintro ⟨header, read, checked⟩
    split at checked
    · cases checked
    · rename_i magic
      obtain ⟨⟨tlvOff, found, tlvTot⟩, area, checked⟩ := bind_eq_ok_iff.mp checked
      by_cases info : found = tlvInfoMagic
      · subst info
        simp only [ne_eq, not_true_eq_false, if_false] at checked
        obtain ⟨tlvs, final, chain, outcome⟩ := verifyTlvs_eq_ok_iff.mp checked
        obtain ⟨front, last, rfl, accepts, same, shown⟩ := outcome_accepts_iff.mp outcome
        exact ⟨header, tlvOff, tlvTot, front, last, final, read, not_not.mp magic, area, chain, accepts,
          same, shown⟩
      · simp only [ne_eq, info, not_false_eq_true, if_true] at checked
        cases checked
  · rintro ⟨header, tlvOff, tlvTot, front, last, final, read, magic, area, chain, accepts, same, shown⟩
    refine ⟨header, read, ?_⟩
    rw [if_neg (not_not.mpr magic)]
    refine bind_eq_ok_iff.mpr ⟨_, area, ?_⟩
    simp only [ne_eq, not_true_eq_false, if_false]
    exact verifyTlvs_eq_ok_iff.mpr ⟨_, final, chain,
      outcome_accepts_iff.mpr ⟨front, last, rfl, accepts, same, shown⟩⟩

end Motohs.Imgtool

import Gouroboros.Ledger.Dijkstra.Accounts

/-!
# Reward accounts as keys

A reward account is determined by its network and its credential, both as an
address (`bytes_eq_of_credential`) and as the key of an account map
(`key_eq_of_credential`). Distinct keys of an accepted map are therefore
distinct accounts (`nodup_keyCredential`).
-/

namespace Gouroboros.Ledger

open ExceptFold

/-! ## Reward accounts -/

theorem newBlake2b224_inj {bs bs' : ByteString} (hlen : bs.length = 28) (hlen' : bs'.length = 28)
    (h : newBlake2b224 bs = newBlake2b224 bs') : bs = bs' := by
  have hbyte : ∀ (l : ByteString) (d : Nat), d ∈ l.reverse.map UInt8.toNat → d < 256 := by
    intro l d hd
    obtain ⟨b, _, rfl⟩ := List.mem_map.mp hd
    exact b.toNat_lt
  have hlt : ∀ l : ByteString, l.length = 28 →
      Nat.ofDigits 256 (l.reverse.map UInt8.toNat) < 2 ^ 224 := by
    intro l hl
    have hpow := Nat.ofDigits_lt_base_pow_length (by norm_num) (hbyte l)
    rw [List.length_map, List.length_reverse, hl] at hpow
    calc Nat.ofDigits 256 (l.reverse.map UInt8.toNat) < 256 ^ 28 := hpow
      _ = 2 ^ 224 := by norm_num
  have hval := congrArg BitVec.toNat h
  simp only [newBlake2b224, BitVec.toNat_ofNat] at hval
  rw [Nat.mod_eq_of_lt (hlt bs hlen), Nat.mod_eq_of_lt (hlt bs' hlen')] at hval
  have hdigits := Nat.ofDigits_inj_of_len_eq (by norm_num) (by simp [hlen, hlen'])
    (hbyte bs) (hbyte bs') hval
  have hinj : Function.Injective UInt8.toNat := fun _ _ => UInt8.toNat_inj.mp
  exact List.reverse_injective (List.map_injective_iff.mpr hinj hdigits)

namespace Address

theorem header_eq (header : UInt8) :
    header = (((header &&& 0xf0) >>> 4) <<< 4) ||| (header &&& 0x0f) := by
  have hall : ∀ n : Fin 256, UInt8.ofNat n =
      (((UInt8.ofNat n &&& 0xf0) >>> 4) <<< 4) ||| (UInt8.ofNat n &&& 0x0f) := by
    decide +kernel
  simpa using hall ⟨header.toNat, header.toNat_lt⟩

def typeOfCredential (cred : Credential) : UInt8 :=
  if cred.credType = credentialTypeAddrKeyHash then typeNoneKey else typeNoneScript

variable {a : Address} {cred : Credential}

section

variable (h : a.rewardAccountCredential = .ok cred)
include h

theorem rewardAccountCredential_eq_ok :
    a.addressType = typeOfCredential cred ∧ a.bytes.length = 29 ∧
      payloadBytes a.stakingPayload = Blake2b224.bytes cred.credential := by
  have hstake := stakeCredential_of_rewardAccountCredential h
  obtain ⟨wantType, htype, h⟩ := bind_eq_ok.mp h
  obtain ⟨_, h⟩ := guard_eq_ok.mp h
  obtain ⟨hlen, h⟩ := guard_eq_ok.mp h
  obtain ⟨_, h⟩ := guard_eq_ok.mp h
  rw [hstake] at h
  obtain ⟨hwant, _⟩ := guard_eq_ok.mp h
  rw [not_not] at hwant hlen
  refine ⟨?_, hlen, ?_⟩
  · rw [typeOfCredential, hwant]
    unfold rewardAccountType at htype
    split at htype
    · rename_i hkey
      cases htype
      simp [hkey]
    · split at htype
      · rename_i hscript
        cases htype
        simp [hscript, credentialTypeScriptHash, credentialTypeAddrKeyHash]
      · cases htype
  · unfold stakeCredential at hstake
    split at hstake
    · rename_i hash hpayload
      cases hstake
      rw [hpayload]
      rfl
    · rename_i hash hpayload
      cases hstake
      rw [hpayload]
      rfl
    · cases hstake

theorem NetworkId_of_rewardAccountCredential : a.NetworkId = a.networkId.toNat := by
  have htype := (rewardAccountCredential_eq_ok h).1
  have hne : a.addressType ≠ typeByron := by
    rw [htype, typeOfCredential]
    split <;> decide
  rw [NetworkId, if_neg hne]

theorem bytes_of_rewardAccountCredential :
    a.bytes = ((typeOfCredential cred <<< 4) ||| (a.networkId &&& 0x0f)) ::
      Blake2b224.bytes cred.credential := by
  obtain ⟨htype, hlen, hpayload⟩ := rewardAccountCredential_eq_ok h
  have hempty : paymentBytes a.paymentPayload = [] := by
    rw [bytes, List.length_cons, List.length_append, hpayload] at hlen
    have hhash : (Blake2b224.bytes cred.credential).length = 28 := by simp [Blake2b224.bytes]
    rw [← List.length_eq_zero_iff]
    omega
  rw [bytes, hempty, hpayload, htype, List.nil_append]

theorem bytes_eq_of_credential {a' : Address} (h' : a'.rewardAccountCredential = .ok cred)
    (hnet : a.NetworkId = a'.NetworkId) : a.bytes = a'.bytes := by
  rw [NetworkId_of_rewardAccountCredential h, NetworkId_of_rewardAccountCredential h'] at hnet
  rw [bytes_of_rewardAccountCredential h, bytes_of_rewardAccountCredential h',
    UInt8.toNat_inj.mp hnet]

end

end Address

namespace Dijkstra

variable {key key' : ByteString} {address : Address}

theorem newRewardAddressFromBytes_eq_ok (h : newRewardAddressFromBytes key = .ok address) :
    ∃ header payload, key = header :: payload ∧ payload.length = 28 ∧
      address.addressType = (header &&& 0xf0) >>> 4 ∧ address.networkId = header &&& 0x0f ∧
      ∀ cred, address.stakeCredential = some cred → cred.credential = newBlake2b224 payload := by
  cases key with
  | nil => cases h
  | cons header payload =>
    obtain ⟨_, h⟩ := guard_eq_ok.mp h
    obtain ⟨_, h⟩ := guard_eq_ok.mp h
    obtain ⟨hge, h⟩ := guard_eq_ok.mp h
    obtain ⟨hle, h⟩ := guard_eq_ok.mp h
    cases h
    refine ⟨header, payload, rfl, by omega, rfl, rfl, ?_⟩
    intro cred hcred
    by_cases hkey : (header &&& 0xf0) >>> 4 = Address.typeNoneKey
    · rw [if_pos hkey] at hcred
      cases hcred
      rfl
    · rw [if_neg hkey] at hcred
      cases hcred
      rfl

theorem dijkstraAddressFromKey_eq_ok (h : dijkstraAddressFromKey key = .ok address) :
    newRewardAddressFromBytes key = .ok address ∧
      ∃ cred, address.rewardAccountCredential = .ok cred := by
  obtain ⟨a, ha, h⟩ := bind_eq_ok.mp h
  obtain ⟨cred, hcred, h⟩ := bind_eq_ok.mp h
  cases h
  exact ⟨ha, cred, hcred⟩

theorem key_eq_of_credential {a a' : Address} {cred : Credential}
    (hkey : dijkstraAddressFromKey key = .ok a) (hkey' : dijkstraAddressFromKey key' = .ok a')
    (h : a.rewardAccountCredential = .ok cred) (h' : a'.rewardAccountCredential = .ok cred)
    (hnet : a.NetworkId = a'.NetworkId) : key = key' := by
  obtain ⟨header, payload, rfl, hlen, htype, hnetwork, hhash⟩ :=
    newRewardAddressFromBytes_eq_ok (dijkstraAddressFromKey_eq_ok hkey).1
  obtain ⟨header', payload', rfl, hlen', htype', hnetwork', hhash'⟩ :=
    newRewardAddressFromBytes_eq_ok (dijkstraAddressFromKey_eq_ok hkey').1
  rw [Address.NetworkId_of_rewardAccountCredential h,
    Address.NetworkId_of_rewardAccountCredential h', UInt8.toNat_inj, hnetwork, hnetwork'] at hnet
  have hsame : (header &&& 0xf0) >>> 4 = (header' &&& 0xf0) >>> 4 := by
    rw [← htype, ← htype', (Address.rewardAccountCredential_eq_ok h).1,
      (Address.rewardAccountCredential_eq_ok h').1]
  have hpayload : payload = payload' := by
    apply newBlake2b224_inj hlen hlen'
    rw [← hhash cred (Address.stakeCredential_of_rewardAccountCredential h),
      ← hhash' cred (Address.stakeCredential_of_rewardAccountCredential h')]
  rw [Address.header_eq header, Address.header_eq header', hsame, hnet, hpayload]

variable {networkId : Nat}

/-! ## Account address maps -/

def keyCredential (key : ByteString) : Credential :=
  ((do (← dijkstraAddressFromKey key).rewardAccountCredential) :
    Except LedgerError Credential).toOption.getD default

def OnNetwork (networkId : Nat) (key : ByteString) : Prop :=
  ∃ address, dijkstraAddressFromKey key = .ok address ∧ address.NetworkId = networkId ∧
    address.rewardAccountCredential = .ok (keyCredential key)

theorem keyCredential_eq {cred : Credential} (hkey : dijkstraAddressFromKey key = .ok address)
    (hcred : address.rewardAccountCredential = .ok cred) : keyCredential key = cred := by
  simp [keyCredential, hkey, hcred, bind, Except.bind, Except.toOption]

theorem keyCredential_inj (h : OnNetwork networkId key) (h' : OnNetwork networkId key')
    (heq : keyCredential key = keyCredential key') : key = key' := by
  obtain ⟨a, ha, hnet, hcred⟩ := h
  obtain ⟨a', ha', hnet', hcred'⟩ := h'
  exact key_eq_of_credential ha ha' hcred (heq ▸ hcred') (hnet.trans hnet'.symm)

theorem mem_sortedDijkstraAccountAddresses {V : Type} {m : GoMap ByteString V} :
    key ∈ sortedDijkstraAccountAddresses m ↔ key ∈ m.keys :=
  (List.perm_insertionSort _ _).mem_iff

theorem onNetwork_of_collect {keys : List ByteString} {acc : List Address}
    (h : keys.foldlM (collectWrongNetwork networkId) acc = .ok []) :
    acc = [] ∧ ∀ key ∈ keys, OnNetwork networkId key := by
  induction keys generalizing acc with
  | nil =>
    rw [foldlM_nil_eq_ok] at h
    exact ⟨h, by simp⟩
  | cons key keys ih =>
    obtain ⟨acc', hstep, hrest⟩ := foldlM_cons_eq_ok.mp h
    obtain ⟨rfl, hkeys⟩ := ih hrest
    obtain ⟨address, haddress, hstep⟩ := bind_eq_ok.mp hstep
    obtain ⟨_, cred, hcred⟩ := dijkstraAddressFromKey_eq_ok haddress
    by_cases hnet : address.NetworkId = networkId
    · simp only [ne_eq, hnet, not_true_eq_false, if_false, Except.ok.injEq] at hstep
      refine ⟨hstep, List.forall_mem_cons.mpr ⟨⟨address, haddress, hnet, ?_⟩, hkeys⟩⟩
      rw [keyCredential_eq haddress hcred]
      exact hcred
    · simp [hnet] at hstep

section

variable {V : Type} {m : GoMap ByteString V}

theorem onNetwork_of_validate {field : String}
    (h : validateDijkstraAccountAddressNetwork m field networkId = .ok ()) :
    ∀ key ∈ m.keys, OnNetwork networkId key := by
  obtain ⟨_, h⟩ := seq_eq_ok.mp h
  obtain ⟨wrongNetwork, hfold, h⟩ := bind_eq_ok.mp h
  have hnone : wrongNetwork = [] := by
    obtain ⟨hlen, _⟩ := guard_eq_ok.mp h
    rw [not_not] at hlen
    exact List.length_eq_zero_iff.mp hlen
  rw [hnone] at hfold
  intro key hkey
  exact (onNetwork_of_collect hfold).2 key (mem_sortedDijkstraAccountAddresses.mpr hkey)

theorem mem_keys_of_mem_toPairs {d : ByteString × V} (h : d ∈ m.toPairs) : d.1 ∈ m.keys := by
  rw [← AList.mem_keys, ← AList.lookup_isSome, GoMap.lookup_of_mem_toPairs h]
  rfl

theorem nodup_keyCredential (h : ∀ key ∈ m.keys, OnNetwork networkId key) :
    (m.toPairs.map fun d => keyCredential d.1).Nodup := by
  have hcomp : (m.toPairs.map fun d => keyCredential d.1) =
      (m.toPairs.map Prod.fst).map keyCredential := by
    rw [List.map_map]
    rfl
  rw [hcomp]
  refine List.Nodup.map_on ?_ m.toPairs_fst_nodup
  intro x hx y hy heq
  obtain ⟨d, hd, rfl⟩ := List.mem_map.mp hx
  obtain ⟨d', hd', rfl⟩ := List.mem_map.mp hy
  exact keyCredential_inj (h _ (mem_keys_of_mem_toPairs hd)) (h _ (mem_keys_of_mem_toPairs hd'))
    heq

end

end Dijkstra

end Gouroboros.Ledger

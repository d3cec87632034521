import Gouroboros.Lib.PointwiseFold
import Gouroboros.Ledger.Dijkstra.AccountKeys

/-!
# What the account overlay answers

The overlay is compared by the accounts it answers for, not by what it has
cached: `accountAt` is the answer, `SameAccounts` the comparison. Each loop of
`dijkstraApplyAccountLevel` is then an update of the answers. The interval checks
change no account, so the interval rule threads the overlay through all levels
(`threadAccounts_of_intervals`).
-/

namespace Gouroboros.Ledger.Dijkstra

open ExceptFold

/-! ## The answers of the overlay -/

namespace DijkstraAccountStateOverlay

variable {s s' t : DijkstraAccountStateOverlay} {c cred : Credential}

def accountAt (s : DijkstraAccountStateOverlay) (c : Credential) :
    Except LedgerError DijkstraAccountBalance :=
  match s.accounts.lookup c with
  | some account => .ok account
  | none => (s.ledgerState.rewardAccountBalance c).map ofBalance

def SameAccounts (s t : DijkstraAccountStateOverlay) : Prop := ∀ c, t.accountAt c = s.accountAt c

theorem accountAt_set (s : DijkstraAccountStateOverlay) (cred c : Credential)
    (account : DijkstraAccountBalance) :
    (s.set cred account).accountAt c = if c = cred then .ok account else s.accountAt c := by
  unfold accountAt set
  rw [GoMap.lookup_insert_ite]
  by_cases h : c = cred
  · rw [if_pos h, if_pos h]
  · rw [if_neg h, if_neg h]

theorem account_eq_ok {account : DijkstraAccountBalance} (h : s.account cred = .ok (account, s')) :
    s.accountAt cred = .ok account ∧ SameAccounts s s' := by
  unfold DijkstraAccountStateOverlay.account at h
  cases hl : s.accounts.lookup cred with
  | some a =>
    rw [hl] at h
    cases h
    exact ⟨by simp [accountAt, hl], fun c => rfl⟩
  | none =>
    rw [hl] at h
    obtain ⟨balance, hbal, h⟩ := bind_eq_ok.mp h
    cases h
    have hat : s.accountAt cred = .ok (ofBalance balance) := by
      simp [accountAt, hl, hbal, Except.map]
    refine ⟨hat, fun c => ?_⟩
    rw [accountAt_set]
    split
    · rename_i hc
      rw [hc, hat]
    · rfl

theorem account_of_accountAt {account : DijkstraAccountBalance}
    (h : s.accountAt cred = .ok account) :
    ∃ s', s.account cred = .ok (account, s') ∧ SameAccounts s s' := by
  have hok : ∃ s', s.account cred = .ok (account, s') := by
    unfold accountAt at h
    unfold DijkstraAccountStateOverlay.account
    cases hl : s.accounts.lookup cred with
    | some a =>
      rw [hl] at h
      cases h
      exact ⟨s, rfl⟩
    | none =>
      rw [hl] at h
      cases hbal : s.ledgerState.rewardAccountBalance cred with
      | error e =>
        rw [hbal] at h
        cases h
      | ok balance =>
        rw [hbal] at h
        cases h
        exact ⟨_, rfl⟩
  obtain ⟨s', hs'⟩ := hok
  exact ⟨s', hs', (account_eq_ok hs').2⟩

def balanceOf (account : DijkstraAccountBalance) : Option UInt64 :=
  if account.registered then some account.balance else none

theorem rewardAccountBalance_eq (s : DijkstraAccountStateOverlay) (c : Credential) :
    s.rewardAccountBalance c = (s.accountAt c).map balanceOf := by
  unfold rewardAccountBalance DijkstraAccountStateOverlay.account accountAt
  cases s.accounts.lookup c with
  | some a => rfl
  | none => cases s.ledgerState.rewardAccountBalance c <;> rfl

end DijkstraAccountStateOverlay

open DijkstraAccountStateOverlay

variable {s s' t : DijkstraAccountStateOverlay} {networkId : Nat}

theorem DijkstraAccountStateOverlay.SameAccounts.balance (h : SameAccounts s t) (c : Credential) :
    t.rewardAccountBalance c = s.rewardAccountBalance c := by
  rw [rewardAccountBalance_eq, rewardAccountBalance_eq, h c]

/-! ## Withdrawals -/

def withdrawalCredential (w : Address × Option Int) : Credential :=
  w.1.rewardAccountCredential.toOption.getD default

variable {w : Address × Option Int} {cred : Credential}

theorem withdrawalCredential_eq
    (h : w.1.rewardAccountCredential = .ok cred) : withdrawalCredential w = cred := by
  simp [withdrawalCredential, h, Except.toOption]

def lower (w : Address × Option Int) (balance : UInt64) : UInt64 :=
  match w.2.bind uint64? with
  | none => balance
  | some amount => if amount ≤ balance then balance - amount else balance

def lowerAccount (w : Address × Option Int) (account : DijkstraAccountBalance) :
    DijkstraAccountBalance :=
  if account.registered then { account with balance := lower w account.balance } else account

theorem withdrawal_of_accountAt {account : DijkstraAccountBalance}
    (hcred : w.1.rewardAccountCredential = .ok cred) (hat : s.accountAt cred = .ok account) :
    ∃ s', dijkstraApplyAccountWithdrawal s w = .ok s' ∧
      ∀ k, s'.accountAt k = if k = cred then .ok (lowerAccount w account) else s.accountAt k := by
  obtain ⟨t, ht, hsame⟩ := account_of_accountAt hat
  -- an account that is left alone still reads as it did
  have hkept : lowerAccount w account = account →
      ∀ k, t.accountAt k = if k = cred then .ok (lowerAccount w account) else s.accountAt k := by
    intro heq k
    rw [hsame k, heq]
    split
    · rename_i hk
      rw [hk, hat]
    · rfl
  unfold dijkstraApplyAccountWithdrawal
  cases hamount : w.2 with
  | none =>
    have heq : lowerAccount w account = account := by simp [lowerAccount, lower, hamount]
    exact ⟨s, rfl, fun k => (hsame k).symm.trans (hkept heq k)⟩
  | some amount =>
    simp only [hcred, ht, bind, Except.bind]
    cases hreg : account.registered with
    | false =>
      have heq : lowerAccount w account = account := by simp [lowerAccount, hreg]
      exact ⟨t, by simp, hkept heq⟩
    | true =>
      simp only [Bool.not_true, Bool.false_eq_true, if_false]
      cases hu : uint64? amount with
      | none =>
        have heq : lowerAccount w account = account := by
          simp [lowerAccount, lower, hamount, hu]
        exact ⟨t, rfl, hkept heq⟩
      | some amount =>
        dsimp only
        split
        · rename_i hlt
          have hnot : ¬ amount ≤ account.balance := UInt64.not_le.mpr hlt
          have heq : lowerAccount w account = account := by
            simp [lowerAccount, lower, hamount, hu, hnot]
          exact ⟨t, rfl, hkept heq⟩
        · rename_i hge
          have hle : amount ≤ account.balance := UInt64.not_lt.mp hge
          refine ⟨_, rfl, fun k => ?_⟩
          rw [accountAt_set, hsame k]
          simp [lowerAccount, lower, hamount, hu, hle, hreg]

theorem accountAt_of_withdrawal (h : dijkstraApplyAccountWithdrawal s w = .ok s')
    (hsome : w.2 ≠ none) :
    ∃ cred account, w.1.rewardAccountCredential = .ok cred ∧ s.accountAt cred = .ok account := by
  unfold dijkstraApplyAccountWithdrawal at h
  cases hamount : w.2 with
  | none => exact absurd hamount hsome
  | some amount =>
    rw [hamount] at h
    obtain ⟨cred, hcred, h⟩ := bind_eq_ok.mp h
    obtain ⟨⟨account, t⟩, ht, _⟩ := bind_eq_ok.mp h
    exact ⟨cred, account, hcred, (account_eq_ok ht).1⟩

variable {body : DijkstraSubTransactionBody}

theorem withdrawalMap_amount_ne_none (h : w ∈ body.withdrawalMap.values) : w.2 ≠ none := by
  unfold DijkstraSubTransactionBody.withdrawalMap DijkstraSubTransactionBody.withdrawals at h
  cases hw : body.txWithdrawals with
  | none =>
    rw [hw] at h
    cases h
  | some ws =>
    rw [hw] at h
    rw [Option.map_some, Option.getD_some, GoMap.values_mapVals] at h
    obtain ⟨x, _, rfl⟩ := List.mem_map.mp h
    simp

theorem accountAt_withdrawal (hw : w ∈ body.withdrawalMap.values)
    (h : dijkstraApplyAccountWithdrawal s w = .ok s') (k : Credential) :
    s'.accountAt k =
      if k = withdrawalCredential w then (s.accountAt k).map (lowerAccount w) else s.accountAt k := by
  obtain ⟨cred, account, hcred, hat⟩ := accountAt_of_withdrawal h (withdrawalMap_amount_ne_none hw)
  obtain ⟨t, ht, hafter⟩ := withdrawal_of_accountAt hcred hat
  rw [h] at ht
  cases ht
  rw [hafter k, withdrawalCredential_eq hcred]
  split
  · rename_i hk
    rw [hk, hat]
    rfl
  · rfl

theorem SameAccounts.withdrawals (h : SameAccounts s t)
    (hs : dijkstraApplyAccountWithdrawals body s = .ok s') :
    ∃ t', dijkstraApplyAccountWithdrawals body t = .ok t' ∧ SameAccounts s' t' := by
  refine foldlM_sim SameAccounts ?_ h hs
  intro u u' v w hw huv hu
  obtain ⟨cred, account, hcred, hat⟩ := accountAt_of_withdrawal hu (withdrawalMap_amount_ne_none hw)
  obtain ⟨v', hv', _⟩ := withdrawal_of_accountAt hcred ((huv cred).trans hat)
  refine ⟨v', hv', fun k => ?_⟩
  rw [accountAt_withdrawal hw hv', accountAt_withdrawal hw hu, huv k]

/-! ## Certificates -/

theorem accountAt_applyAccountCertificate (s : DijkstraAccountStateOverlay) (cert : Certificate)
    (k : Credential) :
    (dijkstraApplyAccountCertificate s cert).accountAt k =
      match accountChange cert with
      | some (cred, registered) =>
        if k = cred then .ok { registered := registered } else s.accountAt k
      | none => s.accountAt k := by
  unfold dijkstraApplyAccountCertificate
  cases accountChange cert with
  | none => rfl
  | some change => exact accountAt_set s change.1 k _

theorem SameAccounts.certificates (h : SameAccounts s t) (body : DijkstraSubTransactionBody) :
    SameAccounts (dijkstraApplyAccountCertificates body s)
      (dijkstraApplyAccountCertificates body t) := by
  unfold dijkstraApplyAccountCertificates
  refine List.foldl_rel h fun cert _ u v huv k => ?_
  rw [accountAt_applyAccountCertificate, accountAt_applyAccountCertificate, huv k]

/-! ## Direct deposits -/

/-- A key whose account the overlay answers for; `registered` tells whether it
is registered. -/
def Resolves (s : DijkstraAccountStateOverlay) (key : ByteString) (registered : Bool) : Prop :=
  (∃ address, dijkstraAddressFromKey key = .ok address ∧
    address.rewardAccountCredential = .ok (keyCredential key)) ∧
  ∃ account, s.accountAt (keyCredential key) = .ok account ∧ account.registered = registered

abbrev ResolveState := (GoMap ByteString Credential × List Credential) × DijkstraAccountStateOverlay

variable {acc acc' : ResolveState} {key : ByteString}

theorem resolveDeposit_of_resolves {registered : Bool} (h : Resolves acc.2 key registered) :
    ∃ t, resolveDeposit acc key = .ok ((acc.1.1.insert key (keyCredential key),
      if registered then acc.1.2 else acc.1.2 ++ [keyCredential key]), t) ∧
      SameAccounts acc.2 t := by
  obtain ⟨⟨address, haddress, hcred⟩, account, hat, hreg⟩ := h
  obtain ⟨t, ht, hsame⟩ := account_of_accountAt hat
  refine ⟨t, ?_, hsame⟩
  simp only [resolveDeposit, haddress, hcred, ht, bind, Except.bind, hreg]
  cases registered <;> rfl

theorem resolves_of_resolveDeposit
    (h : resolveDeposit acc key = .ok acc') : ∃ registered, Resolves acc.2 key registered := by
  obtain ⟨address, haddress, h⟩ := bind_eq_ok.mp h
  obtain ⟨cred, hcred, h⟩ := bind_eq_ok.mp h
  obtain ⟨⟨account, t⟩, ht, _⟩ := bind_eq_ok.mp h
  have hkey := keyCredential_eq haddress hcred
  exact ⟨account.registered, ⟨address, haddress, hkey ▸ hcred⟩, account,
    hkey ▸ (account_eq_ok ht).1, rfl⟩

theorem Resolves.congr {registered : Bool} (h : SameAccounts s t)
    (hs : Resolves s key registered) : Resolves t key registered := by
  obtain ⟨hkey, account, hat, hreg⟩ := hs
  exact ⟨hkey, account, (h _).trans hat, hreg⟩

theorem resolveDeposits_spec {keys : List ByteString}
    (h : keys.foldlM resolveDeposit acc = .ok acc') (hmissing : acc'.1.2 = []) :
    acc.1.2 = [] ∧ SameAccounts acc.2 acc'.2 ∧ (∀ key ∈ keys, Resolves acc.2 key true) ∧
      ∀ key, acc'.1.1.lookup key =
        if key ∈ keys then some (keyCredential key) else acc.1.1.lookup key := by
  induction keys generalizing acc with
  | nil =>
    rw [foldlM_nil_eq_ok] at h
    subst h
    exact ⟨hmissing, fun _ => rfl, by simp, by simp⟩
  | cons key keys ih =>
    obtain ⟨mid, hstep, hrest⟩ := foldlM_cons_eq_ok.mp h
    obtain ⟨registered, hres⟩ := resolves_of_resolveDeposit hstep
    obtain ⟨t, ht, hsame⟩ := resolveDeposit_of_resolves hres
    rw [hstep] at ht
    cases ht
    obtain ⟨hmid, hsame', hkeys, hlookup⟩ := ih hrest
    have hreg : registered := by
      cases registered with
      | true => rfl
      | false => simp at hmid
    subst hreg
    refine ⟨hmid, fun c => (hsame' c).trans (hsame c), ?_, ?_⟩
    · refine List.forall_mem_cons.mpr ⟨hres, fun x hx => ?_⟩
      exact (hkeys x hx).congr fun c => (hsame c).symm
    · intro x
      rw [hlookup x, GoMap.lookup_insert_ite]
      by_cases hx : x ∈ keys
      · simp [hx]
      · by_cases hxk : x = key
        · simp [hxk]
        · simp [hx, hxk]

def raiseAccount (amount : UInt64) (account : DijkstraAccountBalance) : DijkstraAccountBalance :=
  { account with balance := account.balance + amount }

theorem overflow_guard_iff (balance amount : UInt64) :
    UInt64.ofNat (2 ^ 64 - 1) - balance < amount ↔ 2 ^ 64 ≤ balance.toNat + amount.toNat := by
  have hmax : (UInt64.ofNat (2 ^ 64 - 1)).toNat = 2 ^ 64 - 1 :=
    UInt64.toNat_ofNat_of_lt' (by norm_num)
  have hlt := balance.toNat_lt
  have hle : balance ≤ UInt64.ofNat (2 ^ 64 - 1) := by
    rw [UInt64.le_iff_toNat_le, hmax]
    omega
  rw [UInt64.lt_iff_toNat_lt, UInt64.toNat_sub_of_le _ _ hle, hmax]
  omega

variable {credentials : GoMap ByteString Credential} {d : ByteString × UInt64}

section

variable (hlookup : credentials.lookup d.1 = some cred)
include hlookup

theorem creditDeposit_of_accountAt {account : DijkstraAccountBalance}
    (hat : s.accountAt cred = .ok account) (hrange : account.balance.toNat + d.2.toNat < 2 ^ 64) :
    ∃ s', creditDeposit credentials s d = .ok s' ∧
      ∀ k, s'.accountAt k =
        if k = cred then .ok (raiseAccount d.2 account) else s.accountAt k := by
  obtain ⟨t, ht, hsame⟩ := account_of_accountAt hat
  refine ⟨t.set cred (raiseAccount d.2 account), ?_, fun k => ?_⟩
  · have hguard : ¬ UInt64.ofNat (2 ^ 64 - 1) - account.balance < d.2 := by
      rw [overflow_guard_iff]
      omega
    simp only [creditDeposit, hlookup, Option.getD_some, ht, bind, Except.bind, if_neg hguard]
    rfl
  · rw [accountAt_set, hsame k]

theorem accountAt_of_creditDeposit (h : creditDeposit credentials s d = .ok s') :
    ∃ account, s.accountAt cred = .ok account ∧ account.balance.toNat + d.2.toNat < 2 ^ 64 := by
  unfold creditDeposit at h
  simp only [hlookup, Option.getD_some] at h
  obtain ⟨⟨account, t⟩, ht, h⟩ := bind_eq_ok.mp h
  obtain ⟨hguard, _⟩ := guard_eq_ok.mp h
  rw [overflow_guard_iff, not_le] at hguard
  exact ⟨account, (account_eq_ok ht).1, hguard⟩

theorem accountAt_creditDeposit (h : creditDeposit credentials s d = .ok s') (k : Credential) :
    s'.accountAt k =
      if k = cred then (s.accountAt k).map (raiseAccount d.2) else s.accountAt k := by
  obtain ⟨account, hat, hrange⟩ := accountAt_of_creditDeposit hlookup h
  obtain ⟨t, ht, hafter⟩ := creditDeposit_of_accountAt hlookup hat hrange
  rw [h] at ht
  cases ht
  rw [hafter k]
  split
  · rename_i hk
    rw [hk, hat]
    rfl
  · rfl

end

variable {deposits : DijkstraDirectDeposits}

theorem dijkstraApplyDirectDeposits_cases
    (h : dijkstraApplyDirectDeposits deposits networkId s = .ok s') :
    (deposits.keys = [] ∧ s' = s) ∨
    (∀ key ∈ deposits.keys, OnNetwork networkId key ∧ Resolves s key true) ∧
      ∃ credentials t, SameAccounts s t ∧
        (sortedDijkstraAccountAddresses deposits).foldlM resolveDeposit ((∅, []), s) =
          .ok ((credentials, []), t) ∧
        (∀ key ∈ deposits.keys, credentials.lookup key = some (keyCredential key)) ∧
        deposits.toPairs.foldlM (creditDeposit credentials) t = .ok s' := by
  unfold dijkstraApplyDirectDeposits at h
  split at h
  · rename_i hempty
    cases h
    exact .inl ⟨List.length_eq_zero_iff.mp hempty, rfl⟩
  · obtain ⟨hnet, h⟩ := seq_eq_ok.mp h
    obtain ⟨⟨⟨credentials, missing⟩, t⟩, hresolve, h⟩ := bind_eq_ok.mp h
    obtain ⟨hmissing, hcredit⟩ := guard_eq_ok.mp h
    have hnone : missing = [] := not_not.mp hmissing
    subst hnone
    obtain ⟨_, hsame, hkeys, hlookup⟩ := resolveDeposits_spec hresolve rfl
    refine .inr ⟨fun key hkey => ⟨onNetwork_of_validate hnet key hkey, ?_⟩, credentials, t, hsame,
      hresolve, fun key hkey => ?_, hcredit⟩
    · exact hkeys key (mem_sortedDijkstraAccountAddresses.mpr hkey)
    · rw [hlookup, if_pos (mem_sortedDijkstraAccountAddresses.mpr hkey)]

/-- A deposit to a registered account whose balance has room for it. -/
def DepositInRange (answer : Credential → Except LedgerError (Option UInt64))
    (credential : Credential) (amount : UInt64) : Prop :=
  ∃ balance, answer credential = .ok (some balance) ∧ balance.toNat + amount.toNat < 2 ^ 64

/-- The answers after an accepted map of deposits: each had room, and each
balance rose by its own deposit. -/
theorem dijkstraApplyDirectDeposits_spec
    (h : dijkstraApplyDirectDeposits deposits networkId s = .ok s') :
    (∀ key ∈ deposits.keys, OnNetwork networkId key) ∧
      (∀ d ∈ deposits.toPairs, DepositInRange s.rewardAccountBalance (keyCredential d.1) d.2) ∧
      ExceptFold.Pointwise (fun d : ByteString × UInt64 => keyCredential d.1)
        (fun d => Except.map (Option.map (· + d.2))) deposits.toPairs
        s.rewardAccountBalance s'.rewardAccountBalance := by
  rcases dijkstraApplyDirectDeposits_cases h with ⟨hnone, rfl⟩ |
    ⟨hkeys, credentials, t, hsame, _, hlookup, hcredit⟩
  · have hpairs : deposits.toPairs = [] := by
      rw [List.eq_nil_iff_forall_not_mem]
      intro d hd
      have := mem_keys_of_mem_toPairs hd
      rw [hnone] at this
      cases this
    rw [hnone, hpairs]
    exact ⟨by simp, by simp, by simp, fun k _ => rfl⟩
  · have hnetwork : ∀ key ∈ deposits.keys, OnNetwork networkId key := fun key hkey =>
      (hkeys key hkey).1
    obtain ⟨hroom, hpoint⟩ := pointwise_of_foldlM_eq_ok accountAt
      (fun d : ByteString × UInt64 => Except.map (raiseAccount d.2))
      (fun d v => ∃ account, v = .ok account ∧ account.balance.toNat + d.2.toNat < 2 ^ 64)
      (fun u u' d hd hu => ⟨accountAt_of_creditDeposit (hlookup _ (mem_keys_of_mem_toPairs hd)) hu,
        accountAt_creditDeposit (hlookup _ (mem_keys_of_mem_toPairs hd)) hu⟩)
      (nodup_keyCredential hnetwork) hcredit
    refine ⟨hnetwork, ?_, ?_⟩
    · intro d hd
      obtain ⟨account, hat, hlt⟩ := hroom d hd
      obtain ⟨_, account', hat', hreg⟩ := (hkeys _ (mem_keys_of_mem_toPairs hd)).2
      rw [hsame, hat'] at hat
      cases hat
      refine ⟨account.balance, ?_, hlt⟩
      rw [rewardAccountBalance_eq, hat']
      simp [Except.map, balanceOf, hreg]
    · have hmap := hpoint.map (Except.map balanceOf)
        (fun d => Except.map (Option.map (· + d.2))) ?_
      · have hbefore : s.rewardAccountBalance = fun c => (t.accountAt c).map balanceOf := by
          funext c
          rw [rewardAccountBalance_eq, hsame c]
        have hafter : s'.rewardAccountBalance = fun c => (s'.accountAt c).map balanceOf := by
          funext c
          exact rewardAccountBalance_eq s' c
        rw [hbefore, hafter]
        exact hmap
      · intro d v
        cases v with
        | error e => rfl
        | ok account =>
          cases hreg : account.registered <;> simp [Except.map, balanceOf, raiseAccount, hreg]

theorem SameAccounts.resolveDeposits {keys : List ByteString} {x : ResolveState}
    (hacc : keys.foldlM resolveDeposit acc = .ok acc') (hfound : x.1 = acc.1)
    (h : SameAccounts acc.2 x.2) :
    ∃ x', keys.foldlM resolveDeposit x = .ok x' ∧ x'.1 = acc'.1 ∧ SameAccounts acc'.2 x'.2 := by
  refine foldlM_sim
    (fun a y : ResolveState => y.1 = a.1 ∧ SameAccounts a.2 y.2) ?_ ⟨hfound, h⟩ hacc
  rintro a a' y key _ ⟨hya, hsame⟩ ha
  obtain ⟨registered, hres⟩ := resolves_of_resolveDeposit ha
  obtain ⟨a₁, ha₁, hsame₁⟩ := resolveDeposit_of_resolves hres
  obtain ⟨y₁, hy₁, hsame₂⟩ := resolveDeposit_of_resolves (hres.congr hsame)
  rw [ha] at ha₁
  cases ha₁
  refine ⟨_, hy₁, by rw [hya], fun c => ?_⟩
  rw [hsame₂ c, hsame₁ c, hsame c]

theorem SameAccounts.directDeposits (h : SameAccounts s t)
    (hs : dijkstraApplyDirectDeposits deposits networkId s = .ok s') :
    ∃ t', dijkstraApplyDirectDeposits deposits networkId t = .ok t' ∧ SameAccounts s' t' := by
  have hcases := dijkstraApplyDirectDeposits_cases hs
  unfold dijkstraApplyDirectDeposits at hs ⊢
  by_cases hempty : deposits.keys.length = 0
  · rw [if_pos hempty] at hs ⊢
    cases hs
    exact ⟨t, rfl, h⟩
  · rcases hcases with ⟨hnone, _⟩ | ⟨_, credentials, u, _, hresolve, hlookup, hcredit⟩
    · exact absurd (List.length_eq_zero_iff.mpr hnone) hempty
    · rw [if_neg hempty] at hs ⊢
      obtain ⟨hnet, _⟩ := seq_eq_ok.mp hs
      obtain ⟨⟨found, v⟩, hresolve', hfound, huv⟩ :=
        SameAccounts.resolveDeposits (x := ((∅, []), t)) hresolve rfl h
      cases hfound
      -- the second loop: the same sums
      obtain ⟨t', hcredit', hst⟩ := foldlM_sim SameAccounts
        (fun a a' x d hd hax ha => by
          have hkey := hlookup _ (mem_keys_of_mem_toPairs hd)
          obtain ⟨account, hat, hlt⟩ := accountAt_of_creditDeposit hkey ha
          obtain ⟨x', hx', _⟩ := creditDeposit_of_accountAt hkey ((hax _).trans hat) hlt
          refine ⟨x', hx', fun c => ?_⟩
          rw [accountAt_creditDeposit hkey hx', accountAt_creditDeposit hkey ha, hax c])
        huv hcredit
      refine ⟨t', seq_eq_ok.mpr ⟨hnet, ?_⟩, hst⟩
      exact bind_eq_ok.mpr ⟨_, hresolve', by simpa using hcredit'⟩

/-! ## Levels -/

theorem dijkstraApplyAccountLevel_eq_ok :
    dijkstraApplyAccountLevel networkId s body = .ok s' ↔
      checkDirectDepositAddresses body.txDirectDeposits networkId = .ok () ∧
      ∃ s₁, dijkstraApplyAccountWithdrawals body s = .ok s₁ ∧
        dijkstraApplyDirectDeposits body.txDirectDeposits networkId
          (dijkstraApplyAccountCertificates body s₁) = .ok s' := by
  unfold dijkstraApplyAccountLevel
  rw [seq_eq_ok, bind_eq_ok]

theorem SameAccounts.level (h : SameAccounts s t)
    (hs : dijkstraApplyAccountLevel networkId s body = .ok s') :
    ∃ t', dijkstraApplyAccountLevel networkId t body = .ok t' ∧ SameAccounts s' t' := by
  obtain ⟨hcheck, s₁, hs₁, hs'⟩ := dijkstraApplyAccountLevel_eq_ok.mp hs
  obtain ⟨t₁, ht₁, h₁⟩ := SameAccounts.withdrawals h hs₁
  obtain ⟨t', ht', h'⟩ := SameAccounts.directDeposits (SameAccounts.certificates h₁ body) hs'
  exact ⟨t', dijkstraApplyAccountLevel_eq_ok.mpr ⟨hcheck, t₁, ht₁, ht'⟩, h'⟩

theorem sameAccounts_validateIntervals {intervals : DijkstraAccountBalanceIntervals}
    {starting : Bool}
    (h : validateDijkstraAccountBalanceIntervals intervals networkId starting s = .ok s') :
    SameAccounts s s' := by
  unfold validateDijkstraAccountBalanceIntervals at h
  split at h
  · cases h
    exact fun _ => rfl
  · obtain ⟨_, h⟩ := seq_eq_ok.mp h
    obtain ⟨⟨failures, t⟩, hfold, h⟩ := bind_eq_ok.mp h
    obtain ⟨_, h⟩ := seq_eq_ok.mp h
    cases h
    refine foldlM_invariant (fun acc => SameAccounts s acc.2) ?_ (fun _ => rfl) hfold
    intro acc acc' key _ hacc hstep
    unfold checkInterval at hstep
    split at hstep
    · cases hstep
    · obtain ⟨_, hstep⟩ := seq_eq_ok.mp hstep
      obtain ⟨address, _, hstep⟩ := bind_eq_ok.mp hstep
      obtain ⟨cred, _, hstep⟩ := bind_eq_ok.mp hstep
      obtain ⟨⟨account, u⟩, hu, hstep⟩ := bind_eq_ok.mp hstep
      have hsame : SameAccounts s u := fun c => ((account_eq_ok hu).2 c).trans (hacc c)
      dsimp only at hstep
      split at hstep
      · cases hstep
        exact hsame
      · split at hstep
        · cases hstep
          exact hsame
        · cases hstep
          exact hsame

/-! ## The overlay after all levels -/

section Thread

variable {W : Type} {tx : DijkstraTransaction W} {ls : LedgerState}

/-- The overlay threaded through the bodies in ledger order. -/
def threadAccounts (networkId : Nat) (s : DijkstraAccountStateOverlay)
    (bodies : List DijkstraSubTransactionBody) :
    Except LedgerError DijkstraAccountStateOverlay :=
  bodies.foldlM (dijkstraApplyAccountLevel networkId) s

theorem threadAccounts_of_intervals (h : utxoValidateAccountBalanceIntervals tx ls = .ok ()) :
    ∃ s, threadAccounts ls.networkId (newDijkstraAccountStateOverlay ls) tx.bodies = .ok s := by
  obtain ⟨s, hsubs, h⟩ := bind_eq_ok.mp h
  obtain ⟨_, h⟩ := seq_eq_ok.mp h
  obtain ⟨s₁, hs₁, h⟩ := bind_eq_ok.mp h
  obtain ⟨_, _, h⟩ := bind_eq_ok.mp h
  obtain ⟨s₂, hs₂, _⟩ := bind_eq_ok.mp h
  obtain ⟨t, ht, hst⟩ := foldlM_sim SameAccounts
    (g := fun t sub => dijkstraApplyAccountLevel ls.networkId t sub.body)
    (fun u u' v sub _ huv hu => by
      obtain ⟨_, hu⟩ := seq_eq_ok.mp hu
      obtain ⟨u₁, hu₁, hu'⟩ := bind_eq_ok.mp hu
      have hsame : SameAccounts u₁ v := fun c =>
        (huv c).trans (sameAccounts_validateIntervals hu₁ c).symm
      exact SameAccounts.level hsame hu')
    (fun _ => rfl) hsubs
  have hsame : SameAccounts s₁ t := fun c =>
    (hst c).trans (sameAccounts_validateIntervals hs₁ c).symm
  obtain ⟨t', ht', _⟩ := SameAccounts.level hsame hs₂
  refine ⟨t', ?_⟩
  unfold threadAccounts DijkstraTransaction.bodies
  rw [List.foldlM_append, List.foldlM_map]
  refine bind_eq_ok.mpr ⟨t, ht, ?_⟩
  exact foldlM_cons_eq_ok.mpr ⟨t', ht', rfl⟩

end Thread

end Gouroboros.Ledger.Dijkstra

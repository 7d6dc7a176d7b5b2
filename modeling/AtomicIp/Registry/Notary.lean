import AtomicIp.Lib.History
import AtomicIp.Registry.SideTables

set_option autoImplicit false

namespace AtomicIp.IpRegistry

open Function Tx

section Runs

variable {crypto : Crypto} {tr : List (Act × State)} {s s' : State} {act : Act} {i : ℕ}
  {r : IpRecord} {signature : Bytes} {publicKey : BytesN 32}

theorem notarize_verifies (hact : ActStep crypto s act s')
    (hcall : act.call = .notarizeIpTimestamp i signature) :
    ∃ r publicKey, s.ipRecord i = some r ∧ s.notaryPublicKey = some publicKey ∧
      signature.length = 64 ∧
      crypto.ed25519Verify publicKey (u64BeBytes i ++ u64BeBytes r.timestamp) signature = true := by
  rw [ActStep, hcall] at hact
  simp [exec, notarizeIpTimestamp] at hact
  obtain ⟨r, hr, publicKey, hkey, hlength, hverify, -⟩ := hact
  exact ⟨r, publicKey, hr, hkey, hlength, hverify⟩

theorem setNotary_authorised (hact : ActStep crypto s act s')
    (hwrite : writesNotaryKey s act = some ((), some publicKey)) :
    act.call = .setNotaryPublicKey publicKey ∧
      s.admin.getD currentContractAddress ∈ act.auths := by
  obtain ⟨timestamp, auths, budget, call⟩ := act
  cases call with
  | setNotaryPublicKey key =>
    obtain rfl : key = publicKey := by simpa [writesNotaryKey] using hwrite
    unfold ActStep at hact
    simp [exec, setNotaryPublicKey] at hact
    exact ⟨rfl, hact.1⟩
  | _ => cases hwrite

theorem notaryKey_set (hrun : Run (ActStep crypto) State.empty tr s)
    (hkey : s.notaryPublicKey = some publicKey) :
    tableEntry writesNotaryKey tr () = some publicKey ∧
      Happened (fun a act _ => act.call = .setNotaryPublicKey publicKey ∧
        a.admin.getD currentContractAddress ∈ act.auths) State.empty tr := by
  have hentry : tableEntry writesNotaryKey tr () = some publicKey := by
    rw [← run_entry State.notaryKey rfl hrun fun _ _ _ _ => ActStep.notaryKey]
    exact hkey
  refine ⟨hentry, ?_⟩
  cases hlast : lastWrite writesNotaryKey State.empty () tr with
  | none => simp [tableEntry, hlast] at hentry
  | some value =>
    obtain rfl : value = some publicKey := by simpa [tableEntry, hlast] using hentry
    obtain ⟨past, a, act, b, hmem, hwrite⟩ := happened_of_lastWrite hlast
    exact ⟨past, a, act, b, hmem, setNotary_authorised (hrun.step_of_mem hmem) hwrite⟩

/-- In every run the signature an IP shows has been stored by a call of the run and verifies, over
the IP's id and the timestamp it still has, under the key configured before that call, which the
admin had set. -/
theorem notary_signature_valid (hrun : Run (ActStep crypto) State.empty tr s)
    (hr : s.ipRecord i = some r) (hshown : getIpNotarySignature i s = .ok (some signature, s)) :
    ∃ past a act b publicKey, (past, a, act, b) ∈ steps State.empty tr ∧
      act.call = .notarizeIpTimestamp i signature ∧ signature.length = 64 ∧
      crypto.ed25519Verify publicKey (u64BeBytes i ++ u64BeBytes r.timestamp) signature = true ∧
      tableEntry writesNotaryKey past () = some publicKey ∧
      Happened (fun a act _ => act.call = .setNotaryPublicKey publicKey ∧
        a.admin.getD currentContractAddress ∈ act.auths) State.empty past := by
  have hentry : tableEntry writesSignature tr i = some signature := by
    have hview := (side_tables_last_written hrun hr).signature.symm.trans hshown
    simpa using hview
  cases hlast : lastWrite writesSignature State.empty i tr with
  | none => simp [tableEntry, hlast] at hentry
  | some value =>
    obtain rfl : value = some signature := by simpa [tableEntry, hlast] using hentry
    obtain ⟨past, a, act, b, hmem, hwrite⟩ := happened_of_lastWrite hlast
    have hcall : act.call = .notarizeIpTimestamp i signature := by
      obtain ⟨timestamp, auths, budget, call⟩ := act
      cases call with
      | notarizeIpTimestamp ipId stored =>
        obtain ⟨rfl, rfl⟩ : ipId = i ∧ stored = signature := by
          simpa [writesSignature] using hwrite
        rfl
      | _ => cases hwrite
    have hstored := notarize_verifies (hrun.step_of_mem hmem) hcall
    obtain ⟨q, publicKey, hq, hkey, hlength, hverify⟩ := hstored
    -- the record has kept its timestamp since
    obtain ⟨r', hr', hlater⟩ := run_later hrun a (source_mem_visited hmem) i q hq
    obtain rfl := Option.some.inj (hr.symm.trans hr')
    obtain ⟨hconfigured, hset⟩ := notaryKey_set (hrun.before hmem) hkey
    exact ⟨past, a, act, b, publicKey, hmem, hcall, hlength, hlater.timestamp ▸ hverify,
      hconfigured, hset⟩

end Runs

section Designs

open Scenario

def notaryKey : BytesN 32 :=
  ⟨[138, 136, 227, 221, 116, 9, 241, 149, 253, 82, 219, 45, 60, 186, 93, 114, 202, 103, 9, 191,
    29, 148, 18, 27, 243, 116, 136, 1, 180, 15, 111, 92], rfl⟩

def notarySignature : Bytes :=
  [141, 13, 141, 227, 9, 119, 234, 35, 104, 207, 154, 131, 183, 159, 95, 166, 252, 29, 139, 46,
   26, 129, 217, 145, 118, 150, 141, 248, 221, 181, 200, 202, 159, 63, 198, 180, 45, 174, 142,
   251, 137, 170, 162, 140, 86, 203, 63, 188, 174, 17, 136, 254, 36, 142, 121, 233, 152, 216,
   163, 120, 216, 240, 234, 13]

def notaryCrypto : Crypto where
  sha256 := Scenario.crypto.sha256
  ed25519Verify publicKey message signature :=
    decide (publicKey = notaryKey ∧ message = u64BeBytes 1 ++ u64BeBytes 5 ∧
      signature = notarySignature)

theorem design_notarized : ∃ (tr : List (Act × State)) (s : State) (r : IpRecord)
    (publicKey : BytesN 32), Run (ActStep notaryCrypto) State.empty tr s ∧
      s.ipRecord 1 = some r ∧ r.owner = rival ∧ notaryCrypto.ed25519Verify publicKey
        (u64BeBytes 1 ++ u64BeBytes r.timestamp) notarySignature = true := by
  have hplayed : endsIn (fun act => exec (act.env notaryCrypto) act.call)
      [act 4 currentContractAddress (.setNotaryPublicKey notaryKey),
        act 5 inventor (.commitIp inventor design 0),
        act 6 inventor (.notarizeIpTimestamp 1 notarySignature),
        act 7 inventor (.transferIp 1 rival)]
      State.empty (fun s => (s.ipRecord 1).any fun r =>
        r.owner = rival ∧ r.notarySignature = some notarySignature) = true := by decide +kernel
  obtain ⟨tr, s, hrun, -, hseen⟩ := endsIn_run hplayed fun _ _ _ _ hexec => hexec
  simp only [Option.any_eq_true, decide_eq_true_eq] at hseen
  obtain ⟨r, hr, howner, hsigned⟩ := hseen
  have hshown : getIpNotarySignature 1 s = .ok (some notarySignature, s) := by
    rw [← hsigned]
    exact Tx.bind_of_ok (requireIpExists_ok.mpr ⟨hr, rfl⟩)
  obtain ⟨-, -, -, -, publicKey, -, -, -, hverify, -⟩ := notary_signature_valid hrun hr hshown
  exact ⟨tr, s, r, publicKey, hrun, hr, howner, hverify⟩

end Designs

end AtomicIp.IpRegistry

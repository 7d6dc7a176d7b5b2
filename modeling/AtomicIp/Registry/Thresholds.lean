import AtomicIp.Registry.Tables

set_option autoImplicit false

namespace AtomicIp.IpRegistry

open Function Tx

structure Thresholds where
  config : ℕ → Option ThresholdConfig
  signatures : ℕ → Option (List ThresholdSignature)

def State.thresholds (s : State) : Thresholds where
  config := s.thresholdConfig
  signatures := s.thresholdSignatures

namespace Thresholds

variable (t : Thresholds)

def signersOf (ipId : ℕ) : List Address :=
  ((t.signatures ipId).getD []).map ThresholdSignature.signer

def configured (ipId : ℕ) (config : ThresholdConfig) : Thresholds where
  config := update t.config ipId (some config)
  signatures := update t.signatures ipId (some [])

def signed (ipId : ℕ) (signature : ThresholdSignature) : Thresholds where
  config := t.config
  signatures := update t.signatures ipId (some ((t.signatures ipId).getD [] ++ [signature]))

variable {t} {ipId other : ℕ} {config : ThresholdConfig} {signature : ThresholdSignature}

@[simp] theorem config_configured_self : (t.configured ipId config).config ipId = some config :=
  update_self ..

@[simp] theorem signersOf_configured_self : (t.configured ipId config).signersOf ipId = [] := by
  simp [signersOf, configured]

@[simp] theorem signersOf_configured_of_ne (hne : other ≠ ipId) :
    (t.configured ipId config).signersOf other = t.signersOf other := by
  simp [signersOf, configured, hne]

@[simp] theorem signersOf_signed_self :
    (t.signed ipId signature).signersOf ipId = t.signersOf ipId ++ [signature.signer] := by
  simp [signersOf, signed]

@[simp] theorem signersOf_signed_of_ne (hne : other ≠ ipId) :
    (t.signed ipId signature).signersOf other = t.signersOf other := by
  simp [signersOf, signed, hne]

end Thresholds

section Calls

variable {env : Env} {s s' : State} {u : Unit} {ipId threshold : ℕ} {signers : List Address}
  {signer : Address} {hash : BytesN 32} {crypto : Crypto} {act : Act}

theorem requireThresholdSignatures_ok :
    requireThresholdSignatures ipId threshold signers s = .ok (u, s') ↔
      (∃ record, s.ipRecord ipId = some record) ∧ threshold ≠ 0 ∧ threshold ≤ signers.length ∧
        s' = (s.setThresholdConfig ipId (some ⟨ipId, threshold, signers.length, signers⟩)
          ).setThresholdSignatures ipId (some []) := by
  simp only [requireThresholdSignatures, Tx.bind_ok, requireIpExists_ok, require_ok, Tx.store_ok]
  constructor
  · intro h
    obtain ⟨record, _, ⟨hrecord, rfl⟩, _, _, ⟨hfits, rfl⟩, _, _, rfl, rfl⟩ := h
    exact ⟨⟨record, hrecord⟩, by omega, by omega, rfl⟩
  · intro h
    obtain ⟨⟨record, hrecord⟩, hpos, hle, rfl⟩ := h
    exact ⟨record, s, ⟨hrecord, rfl⟩, (), s, ⟨by omega, rfl⟩, (), _, rfl, rfl⟩

theorem addThresholdSignature_ok :
    addThresholdSignature env ipId signer hash s = .ok (u, s') ↔
      (∃ record, s.ipRecord ipId = some record) ∧
        ∃ config, s.thresholdConfig ipId = some config ∧ signer ∈ config.signers ∧
          signer ∉ s.thresholds.signersOf ipId ∧
            s' = s.setThresholdSignatures ipId (some ((s.thresholdSignatures ipId).getD [] ++
              [⟨signer, hash, env.timestamp⟩])) := by
  simp only [addThresholdSignature, Tx.bind_ok, requireIpExists_ok, require_ok, Tx.store_ok,
    Tx.load_ok, orFail_ok]
  constructor
  · intro h
    obtain ⟨record, _, ⟨hrecord, rfl⟩, _, _, ⟨rfl, rfl⟩, config, _, ⟨hconfig, rfl⟩, _, _,
      ⟨hsigner, rfl⟩, _, _, ⟨rfl, rfl⟩, _, _, ⟨hnew, rfl⟩, rfl⟩ := h
    exact ⟨⟨record, hrecord⟩, config, hconfig, hsigner, hnew, rfl⟩
  · intro h
    obtain ⟨⟨record, hrecord⟩, config, hconfig, hsigner, hnew, rfl⟩ := h
    exact ⟨record, s, ⟨hrecord, rfl⟩, _, s, ⟨rfl, rfl⟩, config, s, ⟨hconfig, rfl⟩, (), s,
      ⟨hsigner, rfl⟩, _, s, ⟨rfl, rfl⟩, (), s, ⟨hnew, rfl⟩, rfl⟩

theorem getThresholdSignatures_ok {signatures : List ThresholdSignature} :
    getThresholdSignatures ipId s = .ok (signatures, s') ↔
      (∃ record, s.ipRecord ipId = some record) ∧
        signatures = (s.thresholdSignatures ipId).getD [] ∧ s' = s := by
  simp only [getThresholdSignatures, Tx.bind_ok, requireIpExists_ok, Tx.load_ok]
  constructor
  · intro h
    obtain ⟨record, _, ⟨hrecord, rfl⟩, rfl, rfl⟩ := h
    exact ⟨⟨record, hrecord⟩, rfl, rfl⟩
  · intro h
    obtain ⟨⟨record, hrecord⟩, rfl, rfl⟩ := h
    exact ⟨record, s', ⟨hrecord, rfl⟩, rfl, rfl⟩

theorem verifyThresholdSignatures_ok :
    verifyThresholdSignatures ipId s = .ok (true, s') ↔
      (∃ record, s.ipRecord ipId = some record) ∧
        (∃ config, s.thresholdConfig ipId = some config ∧
          config.threshold ≤ (s.thresholds.signersOf ipId).length) ∧ s' = s := by
  rw [verifyThresholdSignatures, Tx.bind_ok]
  simp only [requireIpExists_ok, Tx.load_bind_ok]
  cases hconfig : s.thresholdConfig ipId with
  | none =>
    constructor
    · intro h
      obtain ⟨record, _, ⟨hrecord, rfl⟩, h⟩ := h
      simp only [hconfig, Tx.pure_ok] at h
      exact absurd h.1 (by decide)
    · intro h
      obtain ⟨-, ⟨config, hsome, -⟩, -⟩ := h
      cases hsome
  | some config =>
    constructor
    · intro h
      obtain ⟨record, _, ⟨hrecord, rfl⟩, h⟩ := h
      simp only [hconfig, Tx.bind_ok, getThresholdSignatures_ok, Tx.pure_ok] at h
      obtain ⟨_, _, ⟨-, rfl, rfl⟩, hmet, rfl⟩ := h
      refine ⟨⟨record, hrecord⟩, ⟨config, rfl, ?_⟩, rfl⟩
      rw [Thresholds.signersOf, List.length_map]
      exact of_decide_eq_true hmet.symm
    · intro h
      obtain ⟨⟨record, hrecord⟩, ⟨_, hsome, hmet⟩, rfl⟩ := h
      cases hsome
      rw [Thresholds.signersOf, List.length_map] at hmet
      refine ⟨record, s', ⟨hrecord, rfl⟩, ?_⟩
      simp only [hconfig, Tx.bind_ok, getThresholdSignatures_ok, Tx.pure_ok]
      exact ⟨_, s', ⟨⟨record, hrecord⟩, rfl, rfl⟩, (decide_eq_true hmet).symm, rfl⟩

theorem blind_thresholds {t : Table} (h : t ≠ .thresholds) : Blind t State.thresholds := by
  cases t with
  | thresholds => exact absurd rfl h
  | _ => exact ⟨fun _ => rfl⟩

def Call.Signs : Call → Prop
  | .requireThresholdSignatures .. | .addThresholdSignature .. => True
  | _ => False

/-- What a call does to the configurations and their signatures. -/
inductive Signing (act : Act) (s s' : State) : Prop where
  | kept (hcall : ¬ act.call.Signs) (h : s'.thresholds = s.thresholds)
  | required (ipId threshold : ℕ) (signers : List Address) (record : IpRecord)
      (hcall : act.call = .requireThresholdSignatures ipId threshold signers)
      (hrecord : s.ipRecord ipId = some record)
      (h : s'.thresholds = s.thresholds.configured ipId ⟨ipId, threshold, signers.length, signers⟩)
  | added (ipId : ℕ) (signer : Address) (hash : BytesN 32) (config : ThresholdConfig)
      (hcall : act.call = .addThresholdSignature ipId signer hash)
      (hconfig : s.thresholds.config ipId = some config) (hsigner : signer ∈ config.signers)
      (hnew : signer ∉ s.thresholds.signersOf ipId)
      (h : s'.thresholds = s.thresholds.signed ipId ⟨signer, hash, act.timestamp⟩)

theorem ActStep.signing (hact : ActStep crypto s act s') : Signing act s s' := by
  obtain ⟨timestamp, auths, budget, call⟩ := act
  unfold ActStep at hact
  cases call with
  | requireThresholdSignatures ipId threshold signers =>
    obtain ⟨⟨record, hrecord⟩, -, -, hs'⟩ := requireThresholdSignatures_ok.mp hact
    exact .required ipId threshold signers record rfl hrecord (congrArg State.thresholds hs')
  | addThresholdSignature ipId signer hash =>
    obtain ⟨-, config, hconfig, hsigner, hnew, hs'⟩ := addThresholdSignature_ok.mp hact
    exact .added ipId signer hash config rfl hconfig hsigner hnew (congrArg State.thresholds hs')
  | _ =>
    refine .kept (fun h => h) (exec_frame State.thresholds hact fun t ht => blind_thresholds ?_)
    rintro rfl
    simp [Call.writes] at ht

end Calls

section Endorsement

variable {crypto : Crypto} {s s' : State} {act : Act} {tr : List (Act × State)} {ipId : ℕ}
  {config : ThresholdConfig} {signers : List Address}

/-- The owner of the record set the configuration, and since then these of its signers signed,
each by a call of his own. -/
inductive Endorsed (ipId : ℕ) (config : ThresholdConfig) :
    List (Act × State) → List Address → Prop where
  | set {past : List (Act × State)} {act : Act} {s : State} {record : IpRecord}
      (hcall : act.call = .requireThresholdSignatures ipId config.threshold config.signers)
      (hrecord : (now State.empty past).ipRecord ipId = some record)
      (howner : record.owner ∈ act.auths) : Endorsed ipId config ((act, s) :: past) []
  | signed {past : List (Act × State)} {act : Act} {s : State} {signers : List Address}
      {signer : Address} {hash : BytesN 32} (h : Endorsed ipId config past signers)
      (hcall : act.call = .addThresholdSignature ipId signer hash) (hauth : signer ∈ act.auths)
      (hsigner : signer ∈ config.signers) :
      Endorsed ipId config ((act, s) :: past) (signers ++ [signer])
  | later {past : List (Act × State)} {act : Act} {s : State} {signers : List Address}
      (h : Endorsed ipId config past signers)
      (hcall : ∀ threshold signers, act.call ≠ .requireThresholdSignatures ipId threshold signers) :
      Endorsed ipId config ((act, s) :: past) signers

/-- Configurations are set by the owner and signatures added by the signer. -/
def SignedCalls (s : State) (act : Act) : Prop :=
  (∀ ipId threshold signers record,
    act.call = .requireThresholdSignatures ipId threshold signers →
      s.ipRecord ipId = some record → record.owner ∈ act.auths) ∧
    ∀ ipId signer hash, act.call = .addThresholdSignature ipId signer hash → signer ∈ act.auths

/-- Every stored signature was given, and no signer has two. -/
structure Genuine (tr : List (Act × State)) (t : Thresholds) (ipId : ℕ) : Prop where
  endorsed : ∀ config, t.config ipId = some config → Endorsed ipId config tr (t.signersOf ipId)
  distinct : (t.signersOf ipId).Nodup

theorem Genuine.empty : Genuine [] State.empty.thresholds ipId where
  endorsed config hconfig := by simp [State.thresholds, State.empty] at hconfig
  distinct := by simp [Thresholds.signersOf, State.thresholds, State.empty]

theorem Genuine.kept {t : Thresholds} (h : Genuine tr t ipId)
    (hcall : ∀ threshold signers, act.call ≠ .requireThresholdSignatures ipId threshold signers) :
    Genuine ((act, s) :: tr) t ipId where
  endorsed config hconfig := (h.endorsed config hconfig).later hcall
  distinct := h.distinct

theorem Genuine.required {t : Thresholds} {threshold : ℕ} {record : IpRecord}
    (hcall : act.call = .requireThresholdSignatures ipId threshold signers)
    (hrecord : (now State.empty tr).ipRecord ipId = some record)
    (howner : record.owner ∈ act.auths) :
    Genuine ((act, s) :: tr) (t.configured ipId ⟨ipId, threshold, signers.length, signers⟩)
      ipId where
  endorsed config hconfig := by
    rw [Thresholds.signersOf_configured_self]
    rw [Thresholds.config_configured_self] at hconfig
    obtain rfl := Option.some.inj hconfig
    exact .set hcall hrecord howner
  distinct := by simp

theorem Genuine.added {t : Thresholds} {signature : ThresholdSignature}
    (h : Genuine tr t ipId) (hconfig : t.config ipId = some config)
    (hcall : act.call = .addThresholdSignature ipId signature.signer signature.signatureHash)
    (hauth : signature.signer ∈ act.auths) (hsigner : signature.signer ∈ config.signers)
    (hnew : signature.signer ∉ t.signersOf ipId) :
    Genuine ((act, s) :: tr) (t.signed ipId signature) ipId where
  endorsed config' hconfig' := by
    rw [Thresholds.signersOf_signed_self]
    obtain rfl : config = config' := Option.some.inj (hconfig.symm.trans hconfig')
    exact .signed (h.endorsed config hconfig) hcall hauth hsigner
  distinct := by
    rw [Thresholds.signersOf_signed_self, List.nodup_append]
    refine ⟨h.distinct, by simp, ?_⟩
    intro a ha b hb hab
    rw [List.mem_singleton] at hb
    exact hnew (hb ▸ hab ▸ ha)

theorem Genuine.elsewhere {t t' : Thresholds} (h : Genuine tr t ipId)
    (hcall : ∀ threshold signers, act.call ≠ .requireThresholdSignatures ipId threshold signers)
    (hconfig : t'.config ipId = t.config ipId) (hsigners : t'.signersOf ipId = t.signersOf ipId) :
    Genuine ((act, s) :: tr) t' ipId where
  endorsed config hsome := by
    rw [hconfig] at hsome
    rw [hsigners]
    exact (h.endorsed config hsome).later hcall
  distinct := hsigners ▸ h.distinct

theorem Genuine.step (h : Genuine tr s.thresholds ipId) (hnow : now State.empty tr = s)
    (hact : ActStep crypto s act s') (hsigned : SignedCalls s act) :
    Genuine ((act, s') :: tr) s'.thresholds ipId := by
  cases hact.signing with
  | kept hcall hsame =>
    rw [hsame]
    refine h.kept ?_
    intro threshold signers e
    rw [e] at hcall
    exact hcall trivial
  | required other threshold signers record hcall hrecord hset =>
    rw [hset]
    have howner := hsigned.1 other threshold signers record hcall hrecord
    by_cases hsame : ipId = other
    · subst hsame
      exact .required hcall (hnow ▸ hrecord) howner
    · refine h.elsewhere ?_ (update_of_ne hsame _ _) ?_
      · intro threshold signers e
        rw [hcall] at e
        cases e
        exact hsame rfl
      · exact Thresholds.signersOf_configured_of_ne hsame
  | added other signer hash config hcall hconfig hsigner hnew hadd =>
    rw [hadd]
    have hauth := hsigned.2 other signer hash hcall
    by_cases hsame : ipId = other
    · subst hsame
      exact h.added hconfig hcall hauth hsigner hnew
    · refine h.elsewhere ?_ rfl ?_
      · intro threshold signers e
        rw [hcall] at e
        cases e
      · exact Thresholds.signersOf_signed_of_ne hsame

/-- Where owners set the configurations and signers sign for themselves, a threshold that is
met was set by the owner and met by as many signers. -/
theorem threshold_genuine (hrun : Run (Restrict (ActStep crypto) SignedCalls) State.empty tr s)
    (hmet : verifyThresholdSignatures ipId s = .ok (true, s')) :
    ∃ config, s.thresholdConfig ipId = some config ∧ ∃ signers, Endorsed ipId config tr signers ∧
      signers.Nodup ∧ config.threshold ≤ signers.length := by
  obtain ⟨-, ⟨config, hconfig, hlength⟩, -⟩ := verifyThresholdSignatures_ok.mp hmet
  have hgenuine : now State.empty tr = s ∧ Genuine tr s.thresholds ipId :=
    hrun.trace_invariant
      (I := fun tr s => now State.empty tr = s ∧ Genuine tr s.thresholds ipId) ⟨rfl, .empty⟩
      fun _ _ _ _ h hstep => ⟨rfl, h.2.step h.1 hstep.1 hstep.2⟩
  exact ⟨config, hconfig, _, hgenuine.2.endorsed config hconfig, hgenuine.2.distinct, hlength⟩

end Endorsement

section Signatures

open Scenario

def registers : Act := act 5 inventor (.commitIp inventor design 0)

def asksFor (owner : Address) : Act :=
  act 6 owner (.requireThresholdSignatures 1 1 [inventor, rival])

def signsAs (signer author : Address) : Act := act 7 author (.addThresholdSignature 1 signer design)

theorem rival_signed : ∃ (tr : List (Act × State)) (s : State) (config : ThresholdConfig)
    (signers : List Address), verifyThresholdSignatures 1 s = .ok (true, s) ∧
      Endorsed 1 config tr signers ∧ config.threshold ≤ signers.length ∧ signers ≠ [] := by
  have hplayed : endsIn perform [registers] State.empty (fun a =>
      ((a.ipRecord 1).any fun r => r.owner = inventor) &&
        endsIn perform [asksFor inventor] a fun b =>
          endsIn perform [signsAs rival rival] b fun c =>
            ((c.ipRecord 1).isSome && (c.thresholdConfig 1).any fun config =>
              1 ≤ config.threshold && config.threshold ≤ (c.thresholds.signersOf 1).length)) =
      true := by decide
  obtain ⟨a, hregisters, hseen⟩ := endsIn_one hplayed
  simp only [Bool.and_eq_true, Option.any_eq_true, decide_eq_true_eq] at hseen
  obtain ⟨⟨r, hr, howner⟩, hlater⟩ := hseen
  obtain ⟨b, hasks, hlast⟩ := endsIn_one hlater
  obtain ⟨c, hsigns, hmet⟩ := endsIn_one hlast
  simp only [Bool.and_eq_true, Option.any_eq_true, decide_eq_true_eq] at hmet
  obtain ⟨hknown, config, hconfig, hone, hlength⟩ := hmet
  have hverified : verifyThresholdSignatures 1 c = .ok (true, c) :=
    verifyThresholdSignatures_ok.mpr
      ⟨Option.isSome_iff_exists.mp hknown, ⟨config, hconfig, hlength⟩, rfl⟩
  have hfirst : SignedCalls State.empty registers := by
    constructor
    · intro ipId threshold signers record hcall
      cases hcall
    · intro ipId signer hash hcall
      cases hcall
  have hsecond : SignedCalls a (asksFor inventor) := by
    constructor
    · intro ipId threshold signers record hcall hrecord
      cases hcall
      obtain rfl := Option.some.inj (hr.symm.trans hrecord)
      exact List.mem_singleton.mpr howner
    · intro ipId signer hash hcall
      cases hcall
  have hthird : SignedCalls b (signsAs rival rival) := by
    constructor
    · intro ipId threshold signers record hcall
      cases hcall
    · intro ipId signer hash hcall
      cases hcall
      exact List.mem_singleton.mpr rfl
  have hrun : Run (Restrict (ActStep crypto) SignedCalls) State.empty
      [(signsAs rival rival, c), (asksFor inventor, b), (registers, a)] c :=
    ((Run.start.next ⟨hregisters, hfirst⟩).next ⟨hasks, hsecond⟩).next ⟨hsigns, hthird⟩
  obtain ⟨config', hconfig', signers, hendorsed, -, henough⟩ := threshold_genuine hrun hverified
  obtain rfl := Option.some.inj (hconfig.symm.trans hconfig')
  refine ⟨_, c, config, signers, hverified, hendorsed, henough, ?_⟩
  rintro rfl
  rw [List.length_nil] at henough
  omega

theorem not_endorsed {a b c : State} {r : IpRecord} {config : ThresholdConfig}
    {signers : List Address} (hr : a.ipRecord 1 = some r) (howner : r.owner = inventor) :
    ¬ Endorsed 1 config [(signsAs inventor rival, c), (asksFor rival, b), (registers, a)]
      signers := by
  intro h
  have hasked : ∃ signers, Endorsed 1 config [(asksFor rival, b), (registers, a)] signers := by
    cases h with
    | set hcall => cases hcall
    | signed h => exact ⟨_, h⟩
    | later h => exact ⟨_, h⟩
  obtain ⟨signers, hasked⟩ := hasked
  cases hasked with
  | set hcall hrecord hauth =>
    obtain rfl := Option.some.inj (hr.symm.trans hrecord)
    rw [howner] at hauth
    exact absurd hauth (by decide)
  | signed _ hcall => cases hcall
  | later _ hcall => exact hcall _ _ rfl

/-- The rival asks for a signature, gives the inventor's, and the threshold is met. -/
theorem rival_forges : ∃ tr s, Run (ActStep crypto) State.empty tr s ∧
    verifyThresholdSignatures 1 s = .ok (true, s) ∧
      ¬ ∃ config, s.thresholdConfig 1 = some config ∧ ∃ signers, Endorsed 1 config tr signers ∧
        signers.Nodup ∧ config.threshold ≤ signers.length := by
  have hplayed : endsIn perform [registers] State.empty (fun a =>
      ((a.ipRecord 1).any fun r => r.owner = inventor) &&
        endsIn perform [asksFor rival] a fun b =>
          endsIn perform [signsAs inventor rival] b fun c =>
            ((c.ipRecord 1).isSome && (c.thresholdConfig 1).any fun config =>
              config.threshold ≤ (c.thresholds.signersOf 1).length)) = true := by decide
  obtain ⟨a, hregisters, hseen⟩ := endsIn_one hplayed
  simp only [Bool.and_eq_true, Option.any_eq_true, decide_eq_true_eq] at hseen
  obtain ⟨⟨r, hr, howner⟩, hlater⟩ := hseen
  obtain ⟨b, hasks, hlast⟩ := endsIn_one hlater
  obtain ⟨c, hsigns, hmet⟩ := endsIn_one hlast
  simp only [Bool.and_eq_true, Option.any_eq_true, decide_eq_true_eq] at hmet
  obtain ⟨hknown, config, hconfig, hlength⟩ := hmet
  refine ⟨_, c, ((Run.start.next hregisters).next hasks).next hsigns, ?_, ?_⟩
  · exact verifyThresholdSignatures_ok.mpr
      ⟨Option.isSome_iff_exists.mp hknown, ⟨config, hconfig, hlength⟩, rfl⟩
  · intro hgenuine
    obtain ⟨_, _, signers, hendorsed, -⟩ := hgenuine
    exact not_endorsed hr howner hendorsed

end Signatures

end AtomicIp.IpRegistry

import AtomicIp.Lib.Index
import AtomicIp.Registry.Tables
import AtomicIp.Registry.Wellformed
import Mathlib.Logic.Relation

set_option autoImplicit false

namespace AtomicIp.IpRegistry

open Function Relation Tx

def listIpByOwner (owner : Address) (s : State) : List ℕ := (s.ownerIps owner).getD []

structure Titles where
  count : ℕ
  ownerOf : ℕ → Option Address
  ownerIps : Address → Option (List ℕ)

def Ledger.ownerOf (c : Ledger) (i : ℕ) : Option Address := (c.ipRecord i).map IpRecord.owner

def State.titles (s : State) : Titles where
  count := s.ledger.count
  ownerOf := s.ledger.ownerOf
  ownerIps := s.ownerIps

namespace Titles

variable (t : Titles)

def grant (owner : Address) : Titles where
  count := t.count + 1
  ownerOf := update t.ownerOf t.count (some owner)
  ownerIps := filed t.ownerIps owner t.count

/-- The next IP is the contract's and goes into no list. -/
def grantUnlisted : Titles :=
  { t with count := t.count + 1,
           ownerOf := update t.ownerOf t.count (some currentContractAddress) }

def pass (i : ℕ) (owner newOwner : Address) : Titles :=
  { t with ownerOf := update t.ownerOf i (some newOwner),
           ownerIps := filed (unfiled t.ownerIps owner i) newOwner i }

inductive Step : Titles → Titles → Prop where
  | granted (t : Titles) (owner : Address) : Step t (t.grant owner)
  | unlisted (t : Titles) : Step t t.grantUnlisted
  | passed (t : Titles) (i : ℕ) (owner newOwner : Address) (h : t.ownerOf i = some owner) :
      Step t (t.pass i owner newOwner)

inductive Grants : Titles → Titles → Prop where
  | granted (t : Titles) (owner : Address) : Grants t (t.grant owner)

inductive Lists : Titles → Titles → Prop where
  | granted (t : Titles) (owner : Address) : Lists t (t.grant owner)
  | passed (t : Titles) (i : ℕ) (owner newOwner : Address) (h : t.ownerOf i = some owner) :
      Lists t (t.pass i owner newOwner)

/-- Every list but the contract's has exactly the IPs of its owner. -/
structure Exact : Prop where
  below : ∀ i owner, t.ownerOf i = some owner → i < t.count
  lists : ∀ owner, owner ≠ currentContractAddress →
    Indexed (· ≠ ·) t.ownerOf owner (listed t.ownerIps owner)

variable {t} {t' : Titles}

theorem Exact.fresh (h : t.Exact) : t.ownerOf t.count = none := by
  cases howner : t.ownerOf t.count with
  | none => rfl
  | some owner => exact absurd (h.below _ _ howner) (Nat.lt_irrefl _)

theorem Exact.grant (h : t.Exact) (owner : Address) : (t.grant owner).Exact where
  below i owner' howner := by
    rcases update_eq_some howner with ⟨rfl, -⟩ | ⟨-, hold⟩
    · exact Nat.lt_succ_self _
    · exact Nat.lt_succ_of_lt (h.below i owner' hold)
  lists owner' hother := by
    refine (h.lists owner' hother).file h.fresh ?_
    intro j hj
    have hlt := h.below j owner' hj
    omega

theorem Exact.grantUnlisted (h : t.Exact) : t.grantUnlisted.Exact where
  below i owner howner := by
    rcases update_eq_some howner with ⟨rfl, -⟩ | ⟨-, hold⟩
    · exact Nat.lt_succ_self _
    · exact Nat.lt_succ_of_lt (h.below i owner hold)
  lists owner hother := by
    refine (h.lists owner hother).congr ?_
    intro j
    by_cases hj : j = t.count
    · simp [Titles.grantUnlisted, hj, h.fresh, Ne.symm hother]
    · simp [Titles.grantUnlisted, hj]

theorem Exact.pass (h : t.Exact) {i : ℕ} {owner : Address} (howner : t.ownerOf i = some owner)
    (newOwner : Address) : (t.pass i owner newOwner).Exact where
  below j owner' howner' := by
    rcases update_eq_some howner' with ⟨rfl, -⟩ | ⟨-, hold⟩
    · exact h.below j owner howner
    · exact h.below j owner' hold
  lists owner' hother := (h.lists owner' hother).refile howner

theorem Exact.step (h : t.Exact) (hstep : Step t t') : t'.Exact := by
  cases hstep with
  | granted owner => exact h.grant owner
  | unlisted => exact h.grantUnlisted
  | passed i owner newOwner howner => exact h.pass howner newOwner

theorem Exact.steps (h : t.Exact) (hsteps : ReflTransGen Step t t') : t'.Exact := by
  induction hsteps with
  | refl => exact h
  | tail _ hstep ih => exact ih.step hstep

theorem Grants.lists (h : Grants t t') : Lists t t' := by
  cases h with
  | granted owner => exact .granted t owner

theorem Lists.step (h : Lists t t') : Step t t' := by
  cases h with
  | granted owner => exact .granted t owner
  | passed i owner newOwner howner => exact .passed t i owner newOwner howner

end Titles

section Calls

open Titles

variable {env : Env} {s s' : State} {u : Unit} {id ipId : ℕ} {owner : Address}
  {commitmentHash : BytesN 32} {parent : Option ℕ}

instance : Blind .admin State.ownerIps := ⟨fun _ => rfl⟩

instance : Blind .ledger State.ownerIps := ⟨fun _ => rfl⟩

instance : Blind .derived State.ownerIps := ⟨fun _ => rfl⟩

instance : Blind .ratings State.ownerIps := ⟨fun _ => rfl⟩

instance : Blind .events State.ownerIps := ⟨fun _ => rfl⟩

theorem blind_ownerIps {t : Table} (h : t ≠ .ownerIps) : Blind t State.ownerIps := by
  cases t with
  | ownerIps => exact absurd rfl h
  | _ => exact ⟨fun _ => rfl⟩

theorem appendOwnerIp_owned (h : appendOwnerIp owner id s = .ok (u, s')) :
    s'.ownerIps = filed s.ownerIps owner id := by
  rw [Tx.store_ok.mp h]
  rfl

theorem removeOwnerIp_owned (h : removeOwnerIp owner id s = .ok (u, s')) :
    s'.ownerIps = unfiled s.ownerIps owner id := by
  rw [Tx.store_ok.mp h]
  rfl

theorem Enrolls.ownerOf {c c' : Ledger} (h : Enrolls env owner commitmentHash parent c c') :
    c'.ownerOf = update c.ownerOf c.count (some owner) := by
  rw [h.ledger]
  funext i
  by_cases hi : i = c.count
  · simp [Ledger.ownerOf, Ledger.enroll, Ledger.setIpRecord, Ledger.setCommitmentOwner,
      Ledger.setNextId, hi, newRecord]
  · simp [Ledger.ownerOf, Ledger.enroll, Ledger.setIpRecord, Ledger.setCommitmentOwner,
      Ledger.setNextId, hi]

theorem titles_of {count : ℕ} {ownerOf : ℕ → Option Address}
    {ownerIps : Address → Option (List ℕ)} (hcount : s.ledger.count = count)
    (howner : s.ledger.ownerOf = ownerOf) (hlists : s.ownerIps = ownerIps) :
    s.titles = ⟨count, ownerOf, ownerIps⟩ := by
  rw [State.titles, hcount, howner, hlists]

theorem Enrolls.granted (h : Enrolls env owner commitmentHash parent s.ledger s'.ledger)
    (howned : s'.ownerIps = filed s.ownerIps owner s.ledger.count) :
    Titles.Grants s.titles s'.titles := by
  have hstep := Titles.Grants.granted s.titles owner
  have hnext := titles_of h.count h.ownerOf howned
  rw [hnext]
  exact hstep

theorem Enrolls.unlisted
    (h : Enrolls env currentContractAddress commitmentHash parent s.ledger s'.ledger)
    (howned : s'.ownerIps = s.ownerIps) : Titles.Step s.titles s'.titles := by
  have hstep := Titles.Step.unlisted s.titles
  have hnext := titles_of h.count h.ownerOf howned
  rw [hnext]
  exact hstep

theorem commitIp_titles {powDifficulty : ℕ}
    (h : commitIp env owner commitmentHash powDifficulty s = .ok (id, s')) :
    Titles.Grants s.titles s'.titles := by
  refine (commitIp_enrolls h).granted ?_
  simp [commitIp] at h
  obtain ⟨-, s₁, hadmin, -, -, -, s₂, howner, -, s₃, haudit, s₄, hshard, s₅, hcompress,
    ⟨_, hchecksum⟩, rfl⟩ := h
  have howned := appendOwnerIp_owned howner
  rw [Keeps.eq State.ownerIps hchecksum, Keeps.eq State.ownerIps hcompress,
    Keeps.eq State.ownerIps hshard, Keeps.eq State.ownerIps haudit, ← initAdmin_ledger hadmin,
    ← Keeps.eq State.ownerIps hadmin]
  exact howned

theorem commitOne_titles (hauth : owner ∈ env.auths)
    (h : commitOne env owner commitmentHash s = .ok (id, s')) :
    Titles.Grants s.titles s'.titles := by
  refine (commitOne_enrolls hauth h).granted ?_
  simp [commitOne] at h
  obtain ⟨-, -, s₁, howner, ⟨-, rfl⟩, rfl⟩ := h
  have howned := appendOwnerIp_owned howner
  exact howned

theorem commitOneAnonymous_titles {blindedOwner : BytesN 32}
    (h : commitOneAnonymous env blindedOwner commitmentHash s = .ok (id, s')) :
    Titles.Step s.titles s'.titles :=
  (commitOneAnonymous_enrolls h).unlisted (Keeps.eq State.ownerIps h)

theorem commitIpDelegated_titles {powDifficulty : ℕ}
    (h : commitIpDelegated env owner commitmentHash powDifficulty s = .ok (id, s')) :
    Titles.Grants s.titles s'.titles := by
  refine (commitIpDelegated_enrolls h).granted ?_
  simp [commitIpDelegated] at h
  obtain ⟨-, -, -, -, -, s₁, howner, -, ⟨_, hchecksum⟩, rfl⟩ := h
  have howned := appendOwnerIp_owned howner
  rw [Keeps.eq State.ownerIps hchecksum]
  exact howned

theorem createIpVersion_titles {parentIpId : ℕ}
    (h : createIpVersion env parentIpId commitmentHash s = .ok (id, s')) :
    Titles.Grants s.titles s'.titles := by
  obtain ⟨parent, hparent, henrolls⟩ := createIpVersion_enrolls h
  refine henrolls.granted ?_
  simp [createIpVersion] at h
  obtain ⟨parent', hparent', -, -, -, s₁, hacyclic, s₂, howner, s₃, hversion, root, s₄, hroot,
    s₅, hchain, -, rfl, rfl⟩ := h
  obtain rfl := Option.some.inj (hparent.symm.trans hparent')
  obtain rfl := requireAcyclic_state hacyclic
  have howned := appendOwnerIp_owned howner
  have hversioned := Keeps.eq State.ownerIps hversion
  have hrooted := Keeps.eq State.ownerIps hroot
  have hchained := Keeps.eq State.ownerIps hchain
  exact hchained.trans (hrooted.trans (hversioned.trans howned))

theorem transferIp_passes {newOwner : Address} (h : transferIp env ipId newOwner s = .ok (u, s')) :
    ∃ owner, s.titles.ownerOf ipId = some owner ∧
      s'.titles = s.titles.pass ipId owner newOwner := by
  obtain ⟨r, hr, -, hledger⟩ := transferIp_ledger h
  simp [transferIp] at h
  obtain ⟨r', hr', -, s₁, hremove, s₂, happend, haudit⟩ := h
  obtain rfl := Option.some.inj (hr.symm.trans hr')
  have howner : s.titles.ownerOf ipId = some r.owner := by
    change (s.ledger.ipRecord ipId).map IpRecord.owner = _
    rw [hr]
    rfl
  have howned := appendOwnerIp_owned happend
  rw [removeOwnerIp_owned hremove] at howned
  have hlists : s'.ownerIps = filed (unfiled s.ownerIps r.owner ipId) newOwner ipId :=
    (Keeps.eq State.ownerIps haudit).trans howned
  have hpassed : s'.ledger.ownerOf = update s.ledger.ownerOf ipId (some newOwner) := by
    rw [hledger]
    funext i
    by_cases hi : i = ipId
    · simp [Ledger.ownerOf, Ledger.transfer, Ledger.setIpRecord, hi, IpRecord.ownedBy]
    · simp [Ledger.ownerOf, Ledger.transfer, Ledger.setIpRecord, Ledger.setCommitmentOwner, hi]
  have hcount : s'.ledger.count = s.ledger.count := by
    rw [hledger]
    rfl
  exact ⟨r.owner, howner, titles_of hcount hpassed hlists⟩

theorem transferIp_titles {newOwner : Address} (h : transferIp env ipId newOwner s = .ok (u, s')) :
    Titles.Lists s.titles s'.titles := by
  obtain ⟨owner, howner, hpass⟩ := transferIp_passes h
  rw [hpass]
  exact .passed s.titles ipId owner newOwner howner

def Move.entitles : Move → Bool
  | .registered _ | .transferred .. => true
  | _ => false

theorem Step.owners_kept {c c' : Ledger} {m : Move} (hstep : Step env c m c')
    (hm : m.entitles = false) : c'.count = c.count ∧ c'.ownerOf = c.ownerOf := by
  cases hstep with
  | registered | transferred => simp [Move.entitles] at hm
  | @rotated i r hash hr =>
    refine ⟨rfl, ?_⟩
    funext j
    by_cases hj : j = i
    · simp [Ledger.ownerOf, Ledger.rotate, Ledger.setIpRecord, hj, hr, IpRecord.rehashed]
    · simp [Ledger.ownerOf, Ledger.rotate, Ledger.setIpRecord, Ledger.setCommitmentOwner,
        Ledger.setEncryptionKeyRotation, hj]
  | @revised i r r' hr hrevises =>
    refine ⟨rfl, ?_⟩
    funext j
    by_cases hj : j = i
    · simp [Ledger.ownerOf, Ledger.setIpRecord, hj, hr, hrevises.owner]
    · simp [Ledger.ownerOf, Ledger.setIpRecord, hj]

theorem sameTitles (hledger : s'.ledger = s.ledger) (howned : s'.ownerIps = s.ownerIps) :
    s'.titles = s.titles := by
  rw [State.titles, hledger, howned]
  rfl

theorem exec_sameTitles {call : Call} (h : exec env call s = .ok ((), s'))
    (hwrites : .ownerIps ∉ call.writes) (hyields : ∀ m, call.yields m → m.entitles = false) :
    s'.titles = s.titles := by
  have howned := exec_frame State.ownerIps h fun t ht => blind_ownerIps fun e => hwrites (e ▸ ht)
  have hkept : s'.ledger.count = s.ledger.count ∧ s'.ledger.ownerOf = s.ledger.ownerOf := by
    refine (exec_moves h).invariant (I := fun c => c.count = s.ledger.count ∧
      c.ownerOf = s.ledger.ownerOf) ?_ ⟨rfl, rfl⟩
    intro c m c' hm hsame hstep
    obtain ⟨hcount, howner⟩ := hstep.owners_kept (hyields m hm)
    exact ⟨hcount.trans hsame.1, howner.trans hsame.2⟩
  exact titles_of hkept.1 hkept.2 howned

def Call.anonymous : Call → Bool
  | .batchCommitIpAnonymous .. => true
  | _ => false

def Call.transfers : Call → Bool
  | .transferIp .. | .transferIpOwnership .. => true
  | _ => false

theorem exec_grants {call : Call} (h : exec env call s = .ok ((), s'))
    (hnamed : call.anonymous = false) (hkept : call.transfers = false) :
    ReflTransGen Titles.Grants s.titles s'.titles := by
  cases call with
  | commitIp =>
    obtain ⟨id, h⟩ := void_ok.mp h
    exact .single (commitIp_titles h)
  | batchCommitIp =>
    obtain ⟨ids, h⟩ := void_ok.mp h
    simp [batchCommitIp] at h
    obtain ⟨hauth, s₁, hadmin, s₂, hloop, u, hchecksum⟩ := h
    have hbefore := sameTitles (initAdmin_ledger hadmin) (Keeps.eq State.ownerIps hadmin)
    have hafter := sameTitles (updateCommitmentChecksum_ledger hchecksum)
      (Keeps.eq State.ownerIps hchecksum)
    rw [← hbefore, hafter]
    exact Tx.forEach_rel (R := fun s s' => ReflTransGen Titles.Grants s.titles s'.titles)
      (fun _ => .refl) .trans (fun _ _ _ _ _ hone => .single (commitOne_titles hauth hone)) hloop
  | batchCommitIpAnonymous => cases hnamed
  | commitIpDelegated =>
    obtain ⟨id, h⟩ := void_ok.mp h
    exact .single (commitIpDelegated_titles h)
  | createIpVersion =>
    obtain ⟨id, h⟩ := void_ok.mp h
    exact .single (createIpVersion_titles h)
  | commitIpVersion =>
    obtain ⟨id, h⟩ := void_ok.mp h
    rw [commitIpVersion] at h
    obtain ⟨s₁, hauth, hcreate⟩ := Tx.seq_ok.mp h
    obtain ⟨-, rfl⟩ := requireAuth_ok.mp hauth
    exact .single (createIpVersion_titles hcreate)
  | transferIp | transferIpOwnership => cases hkept
  | _ =>
    rw [exec_sameTitles h (by simp [Call.writes]) (by grind [Call.yields, Move.entitles])]

theorem exec_lists {call : Call} (h : exec env call s = .ok ((), s'))
    (hnamed : call.anonymous = false) : ReflTransGen Titles.Lists s.titles s'.titles := by
  cases hcall : call.transfers with
  | false => exact ReflTransGen.mono (fun _ _ => Grants.lists) _ _ (exec_grants h hnamed hcall)
  | true =>
    cases call with
    | transferIp | transferIpOwnership => exact .single (transferIp_titles h)
    | _ => cases hcall

theorem exec_titles {call : Call} (h : exec env call s = .ok ((), s')) :
    ReflTransGen Titles.Step s.titles s'.titles := by
  cases hcall : call.anonymous with
  | false => exact ReflTransGen.mono (fun _ _ => Lists.step) _ _ (exec_lists h hcall)
  | true =>
    cases call with
    | batchCommitIpAnonymous =>
      obtain ⟨ids, h⟩ := void_ok.mp h
      simp [batchCommitIpAnonymous] at h
      obtain ⟨-, s₁, hadmin, s₂, hloop, u, hchecksum⟩ := h
      have hbefore := sameTitles (initAdmin_ledger hadmin) (Keeps.eq State.ownerIps hadmin)
      have hafter := sameTitles (updateCommitmentChecksum_ledger hchecksum)
        (Keeps.eq State.ownerIps hchecksum)
      rw [← hbefore, hafter]
      exact Tx.forEach_rel (R := fun s s' => ReflTransGen Titles.Step s.titles s'.titles)
        (fun _ => .refl) .trans (fun _ _ _ _ _ hone => .single (commitOneAnonymous_titles hone))
        hloop
    | _ => cases hcall

end Calls

section Runs

open Titles

variable {crypto : Crypto} {tr : List (Act × State)} {s s' : State} {act : Act}

theorem titles_empty : State.empty.titles.Exact where
  below i owner h := by simp [State.titles, Ledger.ownerOf, State.ledger, State.empty] at h
  lists owner _ := .nil (by simp [State.titles, Ledger.ownerOf, State.ledger, State.empty])

theorem run_titles (hrun : Run (ActStep crypto) State.empty tr s) : s.titles.Exact :=
  hrun.invariant (I := fun s => s.titles.Exact) titles_empty fun _ _ _ h hact =>
    h.steps (exec_titles hact)

/-- Everybody but the contract is listed with exactly the IPs he owns. -/
theorem owner_lists_exact (hrun : Run (ActStep crypto) State.empty tr s) (owner : Address)
    (hother : owner ≠ currentContractAddress) :
    (listIpByOwner owner s).Nodup ∧
      ∀ i, i ∈ listIpByOwner owner s ↔ ∃ r, s.ipRecord i = some r ∧ r.owner = owner := by
  have hlist := (run_titles hrun).lists owner hother
  refine ⟨hlist.ordered, fun i => (hlist.mem i).trans ?_⟩
  exact Option.map_eq_some_iff

end Runs

section Sales

open Scenario

theorem owner_lists_returned : ∃ s, listIpByOwner inventor s = [1] ∧
    ∃ r, s.ipRecord 1 = some r ∧ r.owner = inventor := by
  obtain ⟨tr, s, hrun, -, hseen⟩ := played State.empty
    [act 5 inventor (.commitIp inventor design 0), act 6 inventor (.transferIp 1 inventor),
      act 7 inventor (.transferIp 1 rival), act 8 rival (.transferIp 1 inventor)]
    (fun s => listIpByOwner inventor s = [1]) (by decide)
  have hlist : listIpByOwner inventor s = [1] := by simpa using hseen
  have hexact := owner_lists_exact hrun inventor (by decide)
  exact ⟨s, hlist, (hexact.2 1).mp (by simp [hlist])⟩

end Sales

end AtomicIp.IpRegistry

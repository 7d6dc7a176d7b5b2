import AtomicIp.Lib.History
import AtomicIp.Registry.Priority
import AtomicIp.Registry.Standing
import AtomicIp.Registry.Tables
import Mathlib.Data.List.Chain

set_option autoImplicit false

namespace AtomicIp.IpRegistry

open Function Tx

def getKeyRotationHistory (ipId : ℕ) : RegistryTx (List (BytesN 32)) := do
  let _ ← requireIpExists ipId
  Tx.load fun s => (s.encryptionKeyRotation ipId).getD []

def getPartialDisclosure (ipId : ℕ) (s : State) : Option (BytesN 32) := s.partialDisclosure ipId

/-- The hash a call opens and the one it puts in its place, where it rotates the IP. -/
def Act.rotation (crypto : Crypto) (i : ℕ) (act : Act) : Option (BytesN 32 × BytesN 32) :=
  match act.call with
  | .rotateCommitmentKey ipId commitmentHash oldSecret oldBlindingFactor =>
    if ipId = i then
      some (crypto.sha256 (oldSecret.bytes ++ oldBlindingFactor.bytes), commitmentHash)
    else none
  | _ => none

def rotations (crypto : Crypto) (i : ℕ) (tr : List (Act × State)) :
    List (BytesN 32 × BytesN 32) :=
  gathered (Act.rotation crypto i) tr

def State.hashes (s : State) (i : ℕ) : List (BytesN 32) :=
  s.ledger.rotatedAway i ++ (s.hashOf i).toList

section Steps

variable {crypto : Crypto} {s s' : State} {act : Act} {i : ℕ}

inductive Rehashing (crypto : Crypto) (act : Act) (s s' : State) (i : ℕ) : Prop where
  | kept (hhash : s'.hashOf i = s.hashOf i)
      (haway : s'.ledger.rotatedAway i = s.ledger.rotatedAway i)
      (hcall : act.rotation crypto i = none)
  | born (hash : BytesN 32) (hnone : s.hashOf i = none) (hhash : s'.hashOf i = some hash)
      (haway : s'.ledger.rotatedAway i = s.ledger.rotatedAway i)
      (hcall : act.rotation crypto i = none)
  | rotated (old hash : BytesN 32) (hold : s.hashOf i = some old)
      (hhash : s'.hashOf i = some hash) (hne : old ≠ hash)
      (haway : s'.ledger.rotatedAway i = s.ledger.rotatedAway i ++ [old])
      (hcall : act.rotation crypto i = some (old, hash))

theorem hashOf_some {r : IpRecord} (hr : s.ledger.ipRecord i = some r) :
    s.hashOf i = some r.commitmentHash := by
  rw [State.hashOf, State.ipRecord_ledger, hr]
  rfl

theorem ActStep.rehashing (hact : ActStep crypto s act s') (hwf : s.ledger.Wf) (i : ℕ) :
    Rehashing crypto act s s' i := by
  by_cases hrotates : ∃ j hash secret blindingFactor,
      act.call = .rotateCommitmentKey j hash secret blindingFactor
  · obtain ⟨j, hash, secret, blindingFactor, hcall⟩ := hrotates
    rw [ActStep, hcall] at hact
    have hledger : ∃ r, s.ledger.ipRecord j = some r ∧
        commitmentOf (act.env crypto) secret blindingFactor = r.commitmentHash ∧
        s.ledger.commitmentOwner hash = none ∧ s'.ledger = s.ledger.rotate j r hash := by
      simp [exec, rotateCommitmentKey] at hact
      obtain ⟨r, hr, -, -, hopens, -, hfree, rfl⟩ := hact
      exact ⟨r, hr, hopens, hfree, rfl⟩
    obtain ⟨r, hr, hopens, hfree, hledger⟩ := hledger
    have haway := Ledger.rotatedAway_rotate (c := s.ledger) j r hash i
    rw [← hledger] at haway
    by_cases hi : i = j
    · subst hi
      have hstored : s'.ledger.ipRecord i = some (r.rehashed hash) := by
        rw [hledger]
        exact update_self ..
      refine .rotated r.commitmentHash hash (hashOf_some hr) (hashOf_some hstored)
        (hwf.unregistered hfree hr) ?_ ?_
      · rw [haway, if_pos rfl]
      · rw [Act.rotation, hcall, ← hopens]
        exact if_pos rfl
    · refine .kept ?_ ?_ ?_
      · rw [State.hashOf, State.ipRecord_ledger, hledger]
        exact congrArg _ (update_of_ne hi _ _)
      · rw [haway, if_neg hi]
      · rw [Act.rotation, hcall]
        exact if_neg fun h => hi h.symm
  · have haway : s'.ledger.rotatedAway i = s.ledger.rotatedAway i := by
      refine (exec_moves hact).invariant
        (I := fun c => c.rotatedAway i = s.ledger.rotatedAway i) (fun c m c' hm hc hstep => ?_) rfl
      refine (hstep.rotatedAway_eq ?_ i).trans hc
      rintro j hash rfl
      obtain ⟨secret, blindingFactor, hcall⟩ := Call.yields_rotated hm
      exact hrotates ⟨j, hash, secret, blindingFactor, hcall⟩
    have hcall : act.rotation crypto i = none := by
      unfold Act.rotation
      split
      · next hcall => exact absurd ⟨_, _, _, _, hcall⟩ hrotates
      · rfl
    cases hr : s.ledger.ipRecord i with
    | some r =>
      obtain ⟨r', hr', hedits⟩ := exec_edits hact hwf hr
      refine .kept ?_ haway hcall
      rcases hedits.commitmentHash with hsame | ⟨secret, blindingFactor, hrotate, -⟩
      · rw [hashOf_some hr', hashOf_some hr, hsame]
      · exact absurd ⟨_, _, _, _, hrotate⟩ hrotates
    | none =>
      have hnone : s.hashOf i = none := by
        rw [State.hashOf, State.ipRecord_ledger, hr]
        rfl
      cases hhash : s'.hashOf i with
      | none => exact .kept (hhash.trans hnone.symm) haway hcall
      | some hash => exact .born hash hnone hhash haway hcall

theorem Rehashing.grown (h : Rehashing crypto act s s' i) : s.hashes i <+: s'.hashes i := by
  cases h with
  | kept hhash haway =>
    have hsame : s'.hashes i = s.hashes i := by rw [State.hashes, State.hashes, hhash, haway]
    exact hsame ▸ List.prefix_rfl
  | born hash hnone hhash haway =>
    rw [State.hashes, State.hashes, hnone, haway, Option.toList_none, List.append_nil]
    exact List.prefix_append ..
  | rotated old hash hold hhash hne haway =>
    rw [State.hashes, State.hashes, hold, haway, Option.toList_some]
    exact List.prefix_append ..

end Steps

section Runs

variable {crypto : Crypto} {s s' : State} {act : Act} {i : ℕ} {tr : List (Act × State)}

structure Logged (crypto : Crypto) (i : ℕ) (tr : List (Act × State)) (s : State) : Prop where
  hashes : s.hashes i = history (State.hashOf · i) State.empty tr
  opened : s.ledger.rotatedAway i = (rotations crypto i tr).map Prod.fst
  placed : (s.hashes i).tail = (rotations crypto i tr).map Prod.snd
  distinct : (s.hashes i).IsChain (· ≠ ·)
  absent : s.hashOf i = none → s.ledger.rotatedAway i = []

theorem Logged.empty : Logged crypto i [] State.empty :=
  ⟨rfl, rfl, rfl, .nil, fun _ => rfl⟩

theorem Logged.next (h : Logged crypto i tr s) (hnow : now State.empty tr = s)
    (hstep : Rehashing crypto act s s' i) : Logged crypto i ((act, s') :: tr) s' := by
  cases hstep with
  | kept hhash haway hcall =>
    have hsame : s'.hashes i = s.hashes i := by rw [State.hashes, State.hashes, hhash, haway]
    have hrotations : rotations crypto i ((act, s') :: tr) = rotations crypto i tr :=
      gathered_none hcall
    constructor
    · rw [hsame, h.hashes, history_same hnow hhash]
    · rw [haway, hrotations, h.opened]
    · rw [hsame, hrotations, h.placed]
    · rw [hsame]
      exact h.distinct
    · rw [hhash, haway]
      exact h.absent
  | born hash hnone hhash haway hcall =>
    have hempty := h.absent hnone
    have hrotations : rotations crypto i ((act, s') :: tr) = rotations crypto i tr :=
      gathered_none hcall
    have hone : s'.hashes i = [hash] := by simp [State.hashes, hhash, haway, hempty]
    have hfirst : s.hashes i = [] := by simp [State.hashes, hnone, hempty]
    constructor
    · rw [history_changed hnow (by simp [hhash, hnone]), ← h.hashes, hone, hfirst, hhash]
      rfl
    · rw [haway, hrotations, h.opened]
    · rw [hone, hrotations, ← h.placed, hfirst]
      rfl
    · rw [hone]
      exact .singleton hash
    · simp [hhash]
  | rotated old hash hold hhash hne haway hcall =>
    have hrotations : rotations crypto i ((act, s') :: tr) =
        rotations crypto i tr ++ [(old, hash)] := gathered_some hcall
    have hmore : s'.hashes i = s.hashes i ++ [hash] := by
      simp [State.hashes, hhash, haway, hold]
    have hlast : s.hashes i = s.ledger.rotatedAway i ++ [old] := by simp [State.hashes, hold]
    constructor
    · rw [history_changed hnow (by simpa [hhash, hold] using hne.symm), ← h.hashes, hmore, hhash]
      rfl
    · rw [haway, hrotations, h.opened]
      simp
    · rw [hmore, hrotations, List.map_append, ← h.placed, List.tail_append_of_ne_nil]
      · rfl
      · simp [hlast]
    · have hdistinct := h.distinct
      rw [hmore]
      rw [hlast] at hdistinct ⊢
      refine hdistinct.append (.singleton hash) ?_
      simpa using hne
    · simp [hhash]

theorem run_logged (hrun : Run (ActStep crypto) State.empty tr s) (i : ℕ) :
    Logged crypto i tr s := by
  induction hrun with
  | start => exact .empty
  | next hrun hact ih => exact ih.next hrun.now_eq (hact.rehashing (run_wf hrun) i)

theorem getKeyRotationHistory_eq {r : IpRecord} (hr : s.ipRecord i = some r) :
    getKeyRotationHistory i s = .ok (s.ledger.rotatedAway i, s) := by
  simp at hr
  simp [getKeyRotationHistory, requireIpExists, hr, Ledger.rotatedAway]

/-- In every run the rotation history of an IP followed by its present hash is the list of all
hashes the IP had, in order. The rotations made account for it: each opened the next hash of the
history and brought in the one after it. -/
theorem rotations_logged (hrun : Run (ActStep crypto) State.empty tr s) {r : IpRecord}
    (hr : s.ipRecord i = some r) : ∃ hashes, getKeyRotationHistory i s = .ok (hashes, s) ∧
      hashes ++ [r.commitmentHash] = history (State.hashOf · i) State.empty tr ∧
      (rotations crypto i tr).map Prod.fst = hashes ∧
      (rotations crypto i tr).map Prod.snd = (hashes ++ [r.commitmentHash]).tail ∧
      (hashes ++ [r.commitmentHash]).IsChain (· ≠ ·) := by
  have hlogged := run_logged hrun i
  have hhashes : s.hashes i = s.ledger.rotatedAway i ++ [r.commitmentHash] := by
    rw [State.hashes, hashOf_some hr]
    rfl
  refine ⟨s.ledger.rotatedAway i, getKeyRotationHistory_eq hr, ?_, hlogged.opened.symm, ?_, ?_⟩
  · rw [← hhashes, hlogged.hashes]
  · rw [← hhashes, hlogged.placed]
  · rw [← hhashes]
    exact hlogged.distinct

end Runs

section Disclosures

variable {crypto : Crypto} {s s' : State} {act : Act} {i : ℕ} {tr : List (Act × State)}

/-- The owner opens the hash the IP stands under with `partialHash`. -/
def Discloses (crypto : Crypto) (i : ℕ) (partialHash blindingFactor : BytesN 32) (s : State)
    (act : Act) : Prop :=
  act.call = .revealPartial i partialHash blindingFactor ∧
    ∃ r, s.ipRecord i = some r ∧ r.owner ∈ act.auths ∧
      r.commitmentHash = crypto.sha256 (partialHash.bytes ++ blindingFactor.bytes)

theorem blind_disclosures {t : Table} (ht : t ≠ .disclosures) :
    Blind t State.partialDisclosure := by
  cases t with
  | disclosures => exact absurd rfl ht
  | _ => exact ⟨fun _ => rfl⟩

theorem ActStep.disclosing (hact : ActStep crypto s act s') (i : ℕ) :
    s'.partialDisclosure i = s.partialDisclosure i ∨
      ∃ partialHash blindingFactor, Discloses crypto i partialHash blindingFactor s act ∧
        s'.partialDisclosure i = some partialHash := by
  obtain ⟨timestamp, auths, budget, call⟩ := act
  unfold ActStep at hact
  cases call with
  | revealPartial ipId partialHash blindingFactor =>
    simp [exec, revealPartial] at hact
    obtain ⟨-, -, -, -, rfl⟩ | ⟨r, hr, hauth, hopens, rfl⟩ := hact
    · exact .inl rfl
    · by_cases hi : i = ipId
      · subst hi
        exact .inr ⟨partialHash, blindingFactor, ⟨rfl, r, hr, hauth, hopens.symm⟩, update_self ..⟩
      · exact .inl (update_of_ne hi _ _)
  | _ =>
    have hsame := exec_frame State.partialDisclosure hact fun t ht => blind_disclosures (by
      rintro rfl
      simp [Call.writes] at ht)
    exact .inl (congrFun hsame i)

/-- The disclosure an IP shows was made in the run and opens a hash the IP has had. -/
def Disclosed (crypto : Crypto) (i : ℕ) (tr : List (Act × State)) (s : State) : Prop :=
  ∀ partialHash, s.partialDisclosure i = some partialHash → ∃ blindingFactor,
    crypto.sha256 (partialHash.bytes ++ blindingFactor.bytes) ∈ s.hashes i ∧
      Happened (fun a act _ => Discloses crypto i partialHash blindingFactor a act)
        State.empty tr

theorem Disclosed.next (h : Disclosed crypto i tr s) (hnow : now State.empty tr = s)
    (hhashes : Rehashing crypto act s s' i) (hact : ActStep crypto s act s') :
    Disclosed crypto i ((act, s') :: tr) s' := by
  intro partialHash hshown
  rcases hact.disclosing i with hsame | ⟨newHash, blindingFactor, hdiscloses, hnew⟩
  · obtain ⟨blindingFactor, hmem, hmade⟩ := h partialHash (hsame.symm.trans hshown)
    exact ⟨blindingFactor, hhashes.grown.subset hmem, happened_cons.mpr (.inr hmade)⟩
  · obtain rfl := Option.some.inj (hnew.symm.trans hshown)
    have hopened := hdiscloses
    obtain ⟨-, r, hr, -, hopens⟩ := hopened
    refine ⟨blindingFactor, hhashes.grown.subset ?_, happened_cons.mpr (.inl (hnow ▸ hdiscloses))⟩
    rw [← hopens, State.hashes, hashOf_some hr]
    simp

theorem run_disclosed (hrun : Run (ActStep crypto) State.empty tr s) (i : ℕ) :
    Disclosed crypto i tr s := by
  induction hrun with
  | start =>
    intro partialHash hshown
    cases (show none = some partialHash from hshown)
  | next hrun hact ih => exact ih.next hrun.now_eq (hact.rehashing (run_wf hrun) i) hact

/-- In every run what an IP discloses opens, with some blinding factor, its present hash or one of
its rotation history, and the owner of the time disclosed it while the IP stood under that hash. -/
theorem disclosure_opens (hrun : Run (ActStep crypto) State.empty tr s) {r : IpRecord}
    (hr : s.ipRecord i = some r) {partialHash : BytesN 32}
    (hshown : getPartialDisclosure i s = some partialHash) :
    ∃ hashes blindingFactor, getKeyRotationHistory i s = .ok (hashes, s) ∧
      crypto.sha256 (partialHash.bytes ++ blindingFactor.bytes) ∈ hashes ++ [r.commitmentHash] ∧
      Happened (fun a act _ => Discloses crypto i partialHash blindingFactor a act)
        State.empty tr := by
  obtain ⟨blindingFactor, hmem, hmade⟩ := run_disclosed hrun i partialHash hshown
  refine ⟨_, blindingFactor, getKeyRotationHistory_eq hr, ?_, hmade⟩
  simpa [State.hashes, hashOf_some hr] using hmem

end Disclosures

section Designs

open Scenario

theorem design_rotated : ∃ (tr : List (Act × State)) (s : State) (hashes : List (BytesN 32)),
    Run (ActStep Scenario.crypto) State.empty tr s ∧
      getKeyRotationHistory 1 s = .ok (hashes, s) ∧
      hashes ++ [laterDesign] = history (State.hashOf · 1) State.empty tr := by
  obtain ⟨tr, s, hrun, -, hseen⟩ := played State.empty
    [act 5 inventor (.commitIp inventor design 0),
      act 50 inventor (.rotateCommitmentKey 1 laterDesign secret secret)]
    (fun s => (s.ipRecord 1).any fun r => r.commitmentHash = laterDesign) (by decide)
  simp only [Option.any_eq_true, decide_eq_true_eq] at hseen
  obtain ⟨r, hr, hhash⟩ := hseen
  obtain ⟨hashes, hview, hhistory, -⟩ := rotations_logged hrun hr
  exact ⟨tr, s, hashes, hrun, hview, hhash ▸ hhistory⟩

/-- The design disclosed on day 6 stays disclosed, and opens the hash rotated away since. -/
theorem design_disclosed : ∃ (tr : List (Act × State)) (s : State) (hashes : List (BytesN 32))
    (blindingFactor : BytesN 32), Run (ActStep Scenario.crypto) State.empty tr s ∧
      getPartialDisclosure 1 s = some secret ∧ getKeyRotationHistory 1 s = .ok (hashes, s) ∧
      Scenario.crypto.sha256 (secret.bytes ++ blindingFactor.bytes) ∈ hashes ++ [laterDesign] := by
  obtain ⟨tr, s, hrun, -, hseen⟩ := played State.empty
    [act 5 inventor (.commitIp inventor design 0), act 6 inventor (.revealPartial 1 secret secret),
      act 50 inventor (.rotateCommitmentKey 1 laterDesign secret secret)]
    (fun s => ((s.ipRecord 1).any fun r => r.commitmentHash = laterDesign) &&
      decide (getPartialDisclosure 1 s = some secret)) (by decide)
  simp only [Bool.and_eq_true, Option.any_eq_true, decide_eq_true_eq] at hseen
  obtain ⟨⟨r, hr, hhash⟩, hshown⟩ := hseen
  obtain ⟨hashes, blindingFactor, hview, hmem, -⟩ := disclosure_opens hrun hr hshown
  exact ⟨tr, s, hashes, blindingFactor, hrun, hshown, hview, hhash ▸ hmem⟩

end Designs

end AtomicIp.IpRegistry

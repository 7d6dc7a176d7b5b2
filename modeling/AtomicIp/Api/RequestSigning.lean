import AtomicIp.Host
import AtomicIp.Lib.Checks
import Mathlib.Data.List.Basic
import Mathlib.Data.Set.Operations
import Mathlib.Logic.Function.Basic

set_option autoImplicit false

namespace AtomicIp.ApiServer

open Function Checks

/-- `hex::encode`. -/
def hexEncode (bytes : Bytes) : String :=
  String.ofList (bytes.flatMap fun b => [(b.toNat / 16).digitChar, (b.toNat % 16).digitChar])

def asBytes (s : String) : Bytes := s.toUTF8.data.toList

structure SignaturePayload where
  method : String
  path : String
  timestamp : ℕ
  bodyHash : String
  deriving DecidableEq

section Signatures

variable (sha256 : Bytes → BytesN 32)

/-- The key does not enter. -/
def generateSignature (method path : String) (timestamp : ℕ) (bodyHash _secretKey : String) :
    String :=
  let payload := method ++ "||" ++ path ++ "||" ++ toString timestamp ++ "||" ++ bodyHash
  hexEncode (sha256 (asBytes payload)).bytes

def hashBody (body : Bytes) : String := hexEncode (sha256 body).bytes

def verifySignature (method path : String) (timestamp : ℕ) (bodyHash signature publicKey : String) :
    Bool :=
  generateSignature sha256 method path timestamp bodyHash publicKey = signature

end Signatures

/-- `str::parse::<u64>`: a sign is allowed, anything else but digits is not. -/
def parseU64 (s : String) : Option ℕ :=
  let digits := if s.toList.head? = some '+' then s.toList.tail else s.toList
  if digits ≠ [] ∧ digits.all Char.isDigit ∧ Nat.ofDigitChars 10 digits 0 < 2 ^ 64 then
    some (Nat.ofDigitChars 10 digits 0)
  else none

inductive StatusCode where
  | badRequest | unauthorized
  deriving DecidableEq

/-- A header is the text of its value, if it is there and readable; the body is missing where
it cannot be read. -/
structure Request where
  header : String → Option String
  method : String
  path : String
  body : Option Bytes

def Request.withHeader (req : Request) (name value : String) : Request :=
  { req with header := update req.header name (some value) }

/-- The middleware: the request that goes on to the handler, or why it does not. A timestamp in
the future is as good as a recent one. -/
def verifyRequestSignature (sha256 : Bytes → BytesN 32) (now : ℕ) (req : Request) :
    Except StatusCode Request := do
  let signature ← okOr (req.header "X-Signature") .unauthorized
  let timestampStr ← okOr (req.header "X-Timestamp") .unauthorized
  let timestamp ← okOr (parseU64 timestampStr) .unauthorized
  if 300 < now - timestamp then .error .unauthorized
  else do
    let publicKey ← okOr (req.header "X-Public-Key") .unauthorized
    let bodyBytes ← okOr req.body .badRequest
    if verifySignature sha256 req.method req.path timestamp (hashBody sha256 bodyBytes) signature
        publicKey = false then .error .unauthorized
    else .ok { req with body := some bodyBytes }

section Encodings

variable {bytes bytes' : Bytes}

theorem digitChar_inj : ∀ a < 16, ∀ b < 16, a.digitChar = b.digitChar → a = b := by decide

theorem bar_not_digit : ∀ a < 16, '|' ≠ a.digitChar := by decide

theorem hexEncode_inj : hexEncode bytes = hexEncode bytes' ↔ bytes = bytes' := by
  constructor
  · intro h
    replace h := String.ofList_injective h
    induction bytes generalizing bytes' with
    | nil =>
      cases bytes' with
      | nil => rfl
      | cons b rest => simp at h
    | cons b rest ih =>
      cases bytes' with
      | nil => simp at h
      | cons b' rest' =>
        simp only [List.flatMap_cons, List.cons_append, List.nil_append, List.cons.injEq] at h
        obtain ⟨hhigh, hlow, hrest⟩ := h
        have hb := b.toNat_lt
        have hb' := b'.toNat_lt
        have hhigh' := digitChar_inj _ (by omega) _ (by omega) hhigh
        have hlow' := digitChar_inj _ (by omega) _ (by omega) hlow
        have hbyte : b = b' := by
          rw [← UInt8.toNat_inj]
          omega
        rw [hbyte, ih hrest]
  · intro h
    rw [h]

theorem hexEncode_digits {c : Char} (h : c ∈ (hexEncode bytes).toList) :
    ∃ n < 16, c = n.digitChar := by
  simp only [hexEncode, String.toList_ofList, List.mem_flatMap] at h
  obtain ⟨b, -, hc⟩ := h
  have hb := b.toNat_lt
  rcases List.mem_pair.mp hc with rfl | rfl
  · exact ⟨b.toNat / 16, by omega, rfl⟩
  · exact ⟨b.toNat % 16, by omega, rfl⟩

end Encodings

def SignaturePayload.text (r : SignaturePayload) : String :=
  r.method ++ "||" ++ r.path ++ "||" ++ toString r.timestamp ++ "||" ++ r.bodyHash

/-- As HTTP writes a request: the first slash is the one the path begins with, and the hash of
the body has no bar. -/
structure SignaturePayload.WellFormed (r : SignaturePayload) : Prop where
  method : '/' ∉ r.method.toList
  path : r.path.toList.head? = some '/'
  bodyHash : '|' ∉ r.bodyHash.toList

section Texts

variable {r r' : SignaturePayload} {timestamp timestamp' : ℕ}

theorem split_unique {α : Type} {a : α} {x x' z z' : List α} (hx : a ∉ x) (hx' : a ∉ x')
    (h : x ++ a :: z = x' ++ a :: z') : x = x' ∧ z = z' := by
  induction x generalizing x' with
  | nil =>
    cases x' with
    | nil => exact ⟨rfl, (List.cons.inj h).2⟩
    | cons b rest' => exact absurd (List.mem_cons.mpr (.inl (List.cons.inj h).1)) hx'
  | cons b rest ih =>
    cases x' with
    | nil => exact absurd (List.mem_cons.mpr (.inl (List.cons.inj h).1.symm)) hx
    | cons b' rest' =>
      obtain ⟨hb, hrest⟩ := List.cons.inj h
      obtain ⟨hx₁, hz⟩ := ih (mt (List.mem_cons_of_mem b) hx)
        (mt (List.mem_cons_of_mem b') hx') hrest
      exact ⟨by rw [hb, hx₁], hz⟩

theorem digit_not_bar : '|' ∉ (toString timestamp).toList := by
  rw [Nat.toString_eq_repr, Nat.toList_repr]
  intro h
  have hdigit := Nat.isDigit_of_mem_toDigits (by decide) (by decide) h
  cases hdigit

theorem timestamp_inj (h : (toString timestamp).toList = (toString timestamp').toList) :
    timestamp = timestamp' := by
  rw [Nat.toString_eq_repr, Nat.toString_eq_repr, Nat.toList_repr, Nat.toList_repr] at h
  rw [← Nat.ofDigitChars_ten_toDigits (n := timestamp), h, Nat.ofDigitChars_ten_toDigits]

theorem SignaturePayload.text_inj (hwf : r.WellFormed) (hwf' : r'.WellFormed)
    (h : r.text = r'.text) : r = r' := by
  obtain ⟨method, path, timestamp, bodyHash⟩ := r
  obtain ⟨method', path', timestamp', bodyHash'⟩ := r'
  obtain ⟨q, hq⟩ := List.head?_eq_some_iff.mp hwf.path
  obtain ⟨q', hq'⟩ := List.head?_eq_some_iff.mp hwf'.path
  have hchars := congrArg String.toList h
  have hbars : "||".toList = ['|', '|'] := rfl
  simp only [SignaturePayload.text, String.toList_append, hq, hq', hbars, List.append_assoc,
    List.cons_append, List.nil_append] at hchars
  have hmethods : (method.toList ++ ['|', '|']) ++ '/' ::
      (q ++ '|' :: '|' :: ((toString timestamp).toList ++ '|' :: '|' :: bodyHash.toList)) =
    (method'.toList ++ ['|', '|']) ++ '/' ::
      (q' ++ '|' :: '|' :: ((toString timestamp').toList ++ '|' :: '|' :: bodyHash'.toList)) := by
    simpa using hchars
  obtain ⟨hmethod, hrest⟩ := split_unique (by simp [hwf.method]) (by simp [hwf'.method]) hmethods
  have hreversed := congrArg List.reverse hrest
  simp only [List.reverse_append, List.reverse_cons, List.append_assoc, List.cons_append,
    List.nil_append] at hreversed
  obtain ⟨hbody, hrest⟩ := split_unique (mt List.mem_reverse.mp hwf.bodyHash)
    (mt List.mem_reverse.mp hwf'.bodyHash) hreversed
  obtain ⟨htime, hrest⟩ := split_unique (mt List.mem_reverse.mp digit_not_bar)
    (mt List.mem_reverse.mp digit_not_bar) (List.cons.inj hrest).2
  have hpath : path.toList = path'.toList := by
    rw [hq, hq', List.reverse_inj.mp (List.cons.inj hrest).2]
  obtain rfl := String.toList_inj.mp (List.append_cancel_right hmethod)
  obtain rfl := String.toList_inj.mp hpath
  obtain rfl := timestamp_inj (List.reverse_inj.mp htime)
  obtain rfl := String.toList_inj.mp (List.reverse_inj.mp hbody)
  rfl

end Texts

section Binding

variable {sha256 : Bytes → BytesN 32} {r r' : SignaturePayload} {key key' : String}

def CollisionFree (sha256 : Bytes → BytesN 32) (texts : Set String) : Prop :=
  Set.InjOn (fun text => sha256 (asBytes text)) texts

/-- The signature of `r'` under `key'` is accepted for `r` under `key` only where the two are the
same. -/
def Binds (sha256 : Bytes → BytesN 32) (r r' : SignaturePayload) (key key' : String) : Prop :=
  verifySignature sha256 r.method r.path r.timestamp r.bodyHash
    (generateSignature sha256 r'.method r'.path r'.timestamp r'.bodyHash key') key = true →
  r = r' ∧ key = key'

theorem verifySignature_iff (hsha : CollisionFree sha256 {r.text, r'.text}) :
    verifySignature sha256 r.method r.path r.timestamp r.bodyHash
      (generateSignature sha256 r'.method r'.path r'.timestamp r'.bodyHash key') key = true ↔
    r.text = r'.text := by
  rw [verifySignature, decide_eq_true_eq, generateSignature, generateSignature, hexEncode_inj]
  constructor
  · intro h
    exact hsha (.inl rfl) (.inr rfl) (BytesN.ext h)
  · intro h
    rw [SignaturePayload.text, SignaturePayload.text] at h
    rw [h]

/-- A signature binds what the text tells apart, and never the key. -/
theorem binds_iff (r r' : SignaturePayload) (key key' : String)
    (hsha : CollisionFree sha256 {r.text, r'.text}) :
    (Binds sha256 r r' key key' ↔ r.text ≠ r'.text ∨ (r = r' ∧ key = key')) ∧
      (r.WellFormed → r'.WellFormed → (Binds sha256 r r' key key' ↔ (r = r' → key = key'))) := by
  have hbinds : Binds sha256 r r' key key' ↔ (r.text = r'.text → r = r' ∧ key = key') := by
    rw [Binds, verifySignature_iff hsha]
  rw [hbinds]
  constructor
  · rw [imp_iff_not_or]
  · intro hwf hwf'
    constructor
    · intro h hsame
      exact (h (congrArg SignaturePayload.text hsame)).2
    · intro h htext
      have hsame := SignaturePayload.text_inj hwf hwf' htext
      exact ⟨hsame, h hsame⟩

end Binding

section Requests

def commitRequest : SignaturePayload := ⟨"POST", "/ip/commit", 1234567890, "body_hash"⟩

def readRequest : SignaturePayload := { commitRequest with method := "GET" }

def requestSha256 (data : Bytes) : BytesN 32 :=
  if data = asBytes commitRequest.text then
    ⟨[111, 119, 168, 10, 107, 8, 22, 14, 187, 16, 72, 247, 213, 211, 230, 126, 131, 216, 141, 10,
      255, 141, 18, 130, 244, 140, 175, 140, 52, 88, 60, 151], rfl⟩
  else if data = asBytes readRequest.text then
    ⟨[38, 191, 65, 89, 26, 152, 119, 226, 75, 77, 50, 234, 57, 89, 59, 178, 246, 196, 132, 129,
      222, 108, 255, 55, 134, 51, 84, 94, 190, 79, 255, 254], rfl⟩
  else .zero 32

theorem other_method_refused : Binds requestSha256 commitRequest readRequest "key" "key" ∧
    (Binds requestSha256 commitRequest commitRequest "key" "other" ↔ "key" = "other") := by
  have hcommit : commitRequest.WellFormed := ⟨by decide, by decide, by decide⟩
  have hread : readRequest.WellFormed := ⟨by decide, by decide, by decide⟩
  have hdiffer : commitRequest ≠ readRequest := by decide
  have hpair : CollisionFree requestSha256 {commitRequest.text, readRequest.text} := by
    have hne : requestSha256 (asBytes commitRequest.text) ≠
      requestSha256 (asBytes readRequest.text) := by decide
    rintro _ (rfl | rfl) _ (rfl | rfl) h
    · rfl
    · exact absurd h hne
    · exact absurd h.symm hne
    · rfl
  have hone : CollisionFree requestSha256 {commitRequest.text, commitRequest.text} := by
    rintro _ (rfl | rfl) _ (rfl | rfl) h <;> rfl
  refine ⟨?_, ?_⟩
  · exact ((binds_iff commitRequest readRequest "key" "key" hpair).2 hcommit hread).mpr
      fun h => absurd h hdiffer
  · have hkeys := (binds_iff commitRequest commitRequest "key" "other" hone).2 hcommit hcommit
    exact hkeys.trans ⟨fun h => h rfl, fun h _ => h⟩

theorem other_key_accepted :
    verifySignature requestSha256 "POST" "/ip/commit" 1234567890 "body_hash"
      (generateSignature requestSha256 "POST" "/ip/commit" 1234567890 "body_hash" "other") "key" =
        true ∧ "key" ≠ "other" :=
  ⟨decide_eq_true rfl, by decide⟩

end Requests

section Middleware

variable {sha256 : Bytes → BytesN 32} {now : ℕ} {req req' : Request} {r r' : SignaturePayload}
  {key signature : String}

structure Reads (sha256 : Bytes → BytesN 32) (req : Request) (r : SignaturePayload) : Prop where
  method : r.method = req.method
  path : r.path = req.path
  timestamp : (req.header "X-Timestamp").bind parseU64 = some r.timestamp
  bodyHash : req.body.map (hashBody sha256) = some r.bodyHash

/-- As HTTP has it: the method has no slash and the path begins with one. -/
def Request.Slashed (req : Request) : Prop :=
  '/' ∉ req.method.toList ∧ req.path.toList.head? = some '/'

theorem verifyRequestSignature_ok : verifyRequestSignature sha256 now req = .ok req' ↔
    (∃ r, Reads sha256 req r ∧ now - r.timestamp ≤ 300 ∧
      req.header "X-Signature" = some (hexEncode (sha256 (asBytes r.text)).bytes)) ∧
    (∃ key, req.header "X-Public-Key" = some key) ∧ req' = req := by
  simp only [verifyRequestSignature, bind_ok, okOr_ok, guard_ok]
  constructor
  · intro h
    obtain ⟨signature, hsignature, str, hstr, timestamp, hparse, hrecent, key, hkey, body, hbody,
      hverified, h⟩ := h
    have hsame : { req with body := some body } = req := by rw [← hbody]
    have hown := of_decide_eq_true (Bool.not_eq_false _ ▸ hverified)
    refine ⟨⟨⟨req.method, req.path, timestamp, hashBody sha256 body⟩, ⟨rfl, rfl, ?_, ?_⟩,
      by simpa using hrecent, ?_⟩, ⟨key, hkey⟩, ?_⟩
    · rw [hstr, Option.bind_some, hparse]
    · rw [hbody, Option.map_some]
    · rw [hsignature, ← hown]
      rfl
    · rw [← Except.ok.inj h, hsame]
  · intro h
    obtain ⟨⟨r, hreads, hrecent, hsignature⟩, ⟨key, hkey⟩, rfl⟩ := h
    obtain ⟨str, hstr, hparse⟩ := Option.bind_eq_some_iff.mp hreads.timestamp
    obtain ⟨body, hbody, hhash⟩ := Option.map_eq_some_iff.mp hreads.bodyHash
    have hsame : { req' with body := some body } = req' := by rw [← hbody]
    refine ⟨_, hsignature, str, hstr, r.timestamp, hparse, by simpa using hrecent, key, hkey, body,
      hbody, ?_, by rw [hsame]⟩
    rw [hhash, ← hreads.method, ← hreads.path, Bool.not_eq_false]
    exact decide_eq_true rfl

theorem any_key_passes (h : verifyRequestSignature sha256 now req = .ok req') :
    verifyRequestSignature sha256 now (req.withHeader "X-Public-Key" key) =
      .ok (req.withHeader "X-Public-Key" key) := by
  obtain ⟨⟨r, hreads, hrecent, hsignature⟩, -, -⟩ := verifyRequestSignature_ok.mp h
  refine verifyRequestSignature_ok.mpr ⟨⟨r, ?_, hrecent, ?_⟩, ⟨key, ?_⟩, rfl⟩
  · exact ⟨hreads.method, hreads.path, hreads.timestamp, hreads.bodyHash⟩
  · exact hsignature
  · simp [Request.withHeader]

theorem Reads.wellFormed (h : Reads sha256 req r) (hreq : req.Slashed) : r.WellFormed where
  method := h.method ▸ hreq.1
  path := h.path ▸ hreq.2
  bodyHash := by
    obtain ⟨body, -, hhash⟩ := Option.map_eq_some_iff.mp h.bodyHash
    rw [← hhash]
    intro hbar
    obtain ⟨n, hn, heq⟩ := hexEncode_digits hbar
    exact bar_not_digit n hn heq

theorem Reads.unique (h : Reads sha256 req r) (h' : Reads sha256 req r') : r = r' := by
  obtain ⟨method, path, timestamp, bodyHash⟩ := r
  obtain ⟨method', path', timestamp', bodyHash'⟩ := r'
  obtain rfl := h.method.trans h'.method.symm
  obtain rfl := h.path.trans h'.path.symm
  obtain rfl := Option.some.inj (h.timestamp.symm.trans h'.timestamp)
  obtain rfl := Option.some.inj (h.bodyHash.symm.trans h'.bodyHash)
  rfl

theorem same_signature_same_request {now' : ℕ} (hreq : req.Slashed) (hreq' : req'.Slashed)
    (hreads : Reads sha256 req r) (hreads' : Reads sha256 req' r')
    (hsha : CollisionFree sha256 {r.text, r'.text})
    (hpass : verifyRequestSignature sha256 now req = .ok req)
    (hpass' : verifyRequestSignature sha256 now' req' = .ok req')
    (hsame : req.header "X-Signature" = req'.header "X-Signature") : r = r' := by
  obtain ⟨⟨r₁, hreads₁, -, hsignature⟩, -⟩ := verifyRequestSignature_ok.mp hpass
  obtain ⟨⟨r₂, hreads₂, -, hsignature'⟩, -⟩ := verifyRequestSignature_ok.mp hpass'
  obtain rfl := hreads.unique hreads₁
  obtain rfl := hreads'.unique hreads₂
  rw [hsignature, hsignature'] at hsame
  have hhashes := BytesN.ext (hexEncode_inj.mp (Option.some.inj hsame))
  exact SignaturePayload.text_inj (hreads.wellFormed hreq) (hreads'.wellFormed hreq')
    (hsha (.inl rfl) (.inr rfl) hhashes)

end Middleware

end AtomicIp.ApiServer

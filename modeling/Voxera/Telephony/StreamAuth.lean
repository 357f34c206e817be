import Voxera.Decimal
import Voxera.Numbers
import Voxera.Vad
import Mathlib.Tactic.Linarith

/-!
# Tokens of the media streams

A token is `timestamp.digest`, and the digest is the one of `call_sid:timestamp`. The clock is `time.time`, exact.
HMAC-SHA256 is a function of the secret and the message that the module does not define.

* `signStreamToken`, `verifyStreamToken` : the functions, at a reading of the clock;
* `message_injective` : the message settles the call and the timestamp;
* `stream_token_bound` : a token that verifies is the call's own, and for how long it does.
-/

namespace Voxera.Telephony.StreamAuth

structure Settings where
  /-- `TWILIO_AUTH_TOKEN`; empty when it is not set. -/
  twilioAuthToken : Text
  /-- `SECRET_KEY` -/
  secretKey : Text
  /-- `TWILIO_STREAM_TOKEN_TTL_SECONDS` -/
  ttlSeconds : ℤ

inductive Raised where
  /-- An `HTTPException` with the status 403. -/
  | forbidden (detail : Text)
  /-- `sign_stream_token` without a secret. -/
  | noSecret (message : Text)
  /-- `str` of an integer with too many digits. -/
  | tooManyDigits
  /-- `hmac.compare_digest` on a text beyond ASCII. -/
  | typeError
  deriving DecidableEq

/-- `t.encode("utf-8")` -/
def encode (t : Text) : Bytes := t.flatMap String.utf8EncodeChar

/-- `digest.hex()` -/
def hexdigest (digest : Bytes) : Text :=
  digest.flatMap (fun b => [Nat.digitChar (b.toNat / 16), Nat.digitChar (b.toNat % 16)])

/-- `t.split(".", 1)` of a text with a dot in it. -/
def splitDot (t : Text) : Text × Text := (t.takeWhile (· != '.'), (t.dropWhile (· != '.')).tail)

/-- `hmac.compare_digest` -/
def compareDigest (a b : Text) : Except Raised Bool :=
  if (a ++ b).all (fun c => c.toNat < 128) then .ok (a == b) else .error .typeError

/-- `settings.TWILIO_AUTH_TOKEN or settings.SECRET_KEY or ""` -/
def Settings.secret (settings : Settings) : Text :=
  if settings.twilioAuthToken.isEmpty then settings.secretKey else settings.twilioAuthToken

/-- `issued_at if issued_at is not None else int(time.time())` -/
def timestamp (issuedAt : Option ℤ) (now : ℚ) : ℤ := issuedAt.getD (trunc now)

/-- `f"{call_sid}:{ts}"` -/
def message (callSid : Text) (ts : ℤ) : Text := callSid ++ ':' :: Text.ofInt ts

section Tokens
variable (hmac : Bytes → Bytes → Bytes) (settings : Settings)

def digest (callSid : Text) (ts : ℤ) : Text :=
  hexdigest (hmac (encode settings.secret) (encode (message callSid ts)))

def signStreamToken (callSid : Text) (issuedAt : Option ℤ) (now : ℚ) : Except Raised Text :=
  let ts := timestamp issuedAt now
  if settings.secret.isEmpty then .error (.noSecret "TWILIO_AUTH_TOKEN required for stream signing".toList)
  else if Text.Renders ts then .ok (Text.ofInt ts ++ '.' :: digest hmac settings callSid ts)
  else .error .tooManyDigits

def invalid : Raised := .forbidden "Invalid stream token".toList

def expired : Raised := .forbidden "Stream token expired".toList

def verifyStreamToken (callSid token : Text) (now : ℚ) : Except Raised Unit :=
  if token.isEmpty || !token.contains '.' then .error invalid
  else
    let (tsStr, digest) := splitDot token
    match Text.toInt tsStr with
    | none => .error invalid
    | some issuedAt =>
      if now - issuedAt > settings.ttlSeconds then .error expired
      else do
        let signed ← signStreamToken hmac settings callSid (some issuedAt) now
        if ← compareDigest (splitDot signed).2 digest then .ok () else .error invalid

end Tokens

/-! ## What is signed -/

section Signed
variable {hmac : Bytes → Bytes → Bytes} {settings : Settings} {callSid callSid' token : Text} {ts ts' : ℤ}
  {issuedAt : Option ℤ} {now made : ℚ}

/-- The last colon of a message stands before its timestamp. -/
theorem message_injective (h : message callSid ts = message callSid' ts') : callSid = callSid' ∧ ts = ts' := by
  have hcolon : ∀ n : ℤ, ':' ∉ Text.ofInt n := Text.not_mem_ofInt (by decide) (by decide)
  unfold message at h
  rcases List.append_eq_append_iff.mp h with ⟨more, rfl, hrest⟩ | ⟨more, rfl, hrest⟩
  · cases more with
    | nil => exact ⟨by simp, Text.ofInt_injective (List.cons.inj hrest).2⟩
    | cons c more =>
        have hts : Text.ofInt ts = more ++ ':' :: Text.ofInt ts' := (List.cons.inj hrest).2
        exact absurd (hts ▸ (by simp)) (hcolon ts)
  · cases more with
    | nil => exact ⟨by simp, Text.ofInt_injective (List.cons.inj hrest).2.symm⟩
    | cons c more =>
        have hts : Text.ofInt ts' = more ++ ':' :: Text.ofInt ts := (List.cons.inj hrest).2
        exact absurd (hts ▸ (by simp)) (hcolon ts')

theorem encode_injective : Function.Injective encode := by
  intro s t h
  have hbytes : s.utf8Encode = t.utf8Encode := congrArg List.toByteArray h
  rw [← String.toByteArray_ofList, ← String.toByteArray_ofList, String.toByteArray_inj] at hbytes
  simpa using congrArg String.toList hbytes

theorem hexDigit_digitChar : ∀ n < 16, Text.hexDigit (Nat.digitChar n) = some n := by decide

theorem hexdigest_injective : Function.Injective hexdigest := by
  intro xs ys h
  induction xs generalizing ys with
  | nil =>
      cases ys with
      | nil => rfl
      | cons y ys => exact absurd h (by simp [hexdigest])
  | cons x xs ih =>
      cases ys with
      | nil => exact absurd h (by simp [hexdigest])
      | cons y ys =>
          simp only [hexdigest, List.flatMap_cons, List.cons_append, List.nil_append, List.cons.injEq] at h
          obtain ⟨hhigh, hlow, hrest⟩ := h
          have hx := x.toNat_lt
          have hy := y.toNat_lt
          have hdiv : x.toNat / 16 = y.toNat / 16 := by
            have := congrArg Text.hexDigit hhigh
            rwa [hexDigit_digitChar _ (by omega), hexDigit_digitChar _ (by omega), Option.some.injEq] at this
          have hmod : x.toNat % 16 = y.toNat % 16 := by
            have := congrArg Text.hexDigit hlow
            rwa [hexDigit_digitChar _ (by omega), hexDigit_digitChar _ (by omega), Option.some.injEq] at this
          rw [UInt8.toNat_inj.mp (by omega : x.toNat = y.toNat), ih hrest]

/-- A digest settles the call and the timestamp. -/
theorem digest_injective (hinj : Function.Injective (hmac (encode settings.secret)))
    (h : digest hmac settings callSid ts = digest hmac settings callSid' ts') : callSid = callSid' ∧ ts = ts' :=
  message_injective (encode_injective (hinj (hexdigest_injective h)))

theorem digest_ascii : ∀ c ∈ digest hmac settings callSid ts, c.toNat < 128 := by
  have hdigit : ∀ n < 16, (Nat.digitChar n).toNat < 128 := by decide
  intro c hc
  obtain ⟨b, -, hb⟩ := List.mem_flatMap.mp hc
  have := b.toNat_lt
  rcases List.mem_cons.mp hb with rfl | hb
  · exact hdigit _ (by omega)
  · rw [List.mem_singleton.mp hb]
    exact hdigit _ (by omega)

/-! ## The two functions -/

theorem splitDot_signed (ts : ℤ) (d : Text) : splitDot (Text.ofInt ts ++ '.' :: d) = (Text.ofInt ts, d) := by
  have hdot : ∀ c ∈ Text.ofInt ts, (c != '.') = true := by
    rintro c hc
    have : c ≠ '.' := fun he => Text.not_mem_ofInt (by decide) (by decide) ts (he ▸ hc)
    simpa using this
  rw [splitDot, List.takeWhile_append_of_pos hdot, List.dropWhile_append_of_pos hdot]
  simp

theorem sign_eq_ok (h : signStreamToken hmac settings callSid issuedAt now = .ok token) :
    settings.secret.isEmpty = false ∧ Text.Renders (timestamp issuedAt now) ∧
      token = Text.ofInt (timestamp issuedAt now) ++ '.' :: digest hmac settings callSid (timestamp issuedAt now) := by
  unfold signStreamToken at h
  dsimp only at h
  split_ifs at h with hsecret hrenders
  · exact ⟨by simpa using hsecret, hrenders, (Except.ok.inj h).symm⟩

theorem compareDigest_eq_ok {a b : Text} {same : Bool} (h : compareDigest a b = .ok same) : same = (a == b) := by
  unfold compareDigest at h
  split_ifs at h
  exact (Except.ok.inj h).symm

/-- What a token must be for its call to be let in. -/
theorem verify_eq_ok (h : verifyStreamToken hmac settings callSid token now = .ok ()) :
    ∃ ts, Text.toInt (splitDot token).1 = some ts ∧ now - ts ≤ settings.ttlSeconds ∧
      (splitDot token).2 = digest hmac settings callSid ts := by
  unfold verifyStreamToken at h
  split at h
  · exact absurd h (by simp)
  · dsimp only at h
    cases hts : Text.toInt (splitDot token).1 with
    | none =>
        rw [hts] at h
        exact absurd h (by simp)
    | some ts =>
        rw [hts] at h
        dsimp only at h
        split_ifs at h with hage
        cases hsign : signStreamToken hmac settings callSid (some ts) now with
        | error e =>
            rw [hsign] at h
            exact absurd h (by simp [bind, Except.bind])
        | ok signed =>
            obtain ⟨-, -, rfl⟩ := sign_eq_ok hsign
            rw [hsign] at h
            simp only [bind, Except.bind, splitDot_signed, timestamp, Option.getD_some] at h
            cases hcompare : compareDigest (digest hmac settings callSid ts) (splitDot token).2 with
            | error e =>
                rw [hcompare] at h
                exact absurd h (by simp)
            | ok same =>
                rw [hcompare, compareDigest_eq_ok hcompare] at h
                dsimp only at h
                split_ifs at h with heq
                exact ⟨ts, rfl, not_lt.mp hage, (eq_of_beq heq).symm⟩

/-- A call's own token is let in until the lifetime after its timestamp is over. -/
theorem verify_signed (h : signStreamToken hmac settings callSid issuedAt made = .ok token) (now : ℚ) :
    verifyStreamToken hmac settings callSid token now = .ok () ↔
      now ≤ timestamp issuedAt made + settings.ttlSeconds := by
  obtain ⟨hsecret, hrenders, rfl⟩ := sign_eq_ok h
  generalize timestamp issuedAt made = ts at hrenders ⊢
  have hsigned : signStreamToken hmac settings callSid (some ts) now =
      .ok (Text.ofInt ts ++ '.' :: digest hmac settings callSid ts) := by
    simp [signStreamToken, timestamp, hsecret, hrenders]
  have hcompare : compareDigest (digest hmac settings callSid ts) (digest hmac settings callSid ts) = .ok true := by
    have hall : (digest hmac settings callSid ts ++ digest hmac settings callSid ts).all (fun c => c.toNat < 128) =
        true := by
      rw [List.all_eq_true]
      intro c hc
      exact decide_eq_true (digest_ascii c (by simpa using hc))
    rw [compareDigest, if_pos hall, beq_self_eq_true]
  have hdot : ((Text.ofInt ts ++ '.' :: digest hmac settings callSid ts).isEmpty ||
      !(Text.ofInt ts ++ '.' :: digest hmac settings callSid ts).contains '.') = false := by simp
  rw [verifyStreamToken, if_neg (by rw [hdot]; simp)]
  simp only [splitDot_signed, Text.toInt_ofInt hrenders, hsigned, bind, Except.bind, hcompare, if_true]
  by_cases hage : now - ts > settings.ttlSeconds
  · rw [if_pos hage]
    simp only [reduceCtorEq, false_iff, not_le]
    linarith
  · rw [if_neg hage]
    simp only [true_iff]
    linarith

end Signed

/-- A token that carries the digest of one signed for a call verifies for no other call, at no other timestamp and not
beyond its lifetime, and a call's own token verifies up to the end of it. -/
theorem stream_token_bound (hmac : Bytes → Bytes → Bytes) (settings : Settings)
    (hinj : Function.Injective (hmac (encode settings.secret))) :
    (∀ c₁ c₂ issuedAt made signed token now, signStreamToken hmac settings c₁ issuedAt made = .ok signed →
      (splitDot token).2 = (splitDot signed).2 → verifyStreamToken hmac settings c₂ token now = .ok () →
      c₁ = c₂ ∧ Text.toInt (splitDot token).1 = some (timestamp issuedAt made) ∧
        now - timestamp issuedAt made ≤ settings.ttlSeconds) ∧
    ∀ c issuedAt made token, signStreamToken hmac settings c issuedAt made = .ok token →
      ∀ now, verifyStreamToken hmac settings c token now = .ok () ↔
        now ≤ timestamp issuedAt made + settings.ttlSeconds := by
  refine ⟨?_, fun c issuedAt made token h now => verify_signed h now⟩
  intro c₁ c₂ issuedAt made signed token now hsign hcarries hverify
  obtain ⟨-, -, rfl⟩ := sign_eq_ok hsign
  obtain ⟨ts, hts, hage, hdigest⟩ := verify_eq_ok hverify
  rw [splitDot_signed] at hcarries
  obtain ⟨rfl, rfl⟩ := digest_injective hinj (hdigest.symm.trans hcarries)
  exact ⟨rfl, hts, hage⟩

/-- HMAC-SHA256 under the secret `secret` on the message `CA1:0`, and elsewhere an injective function. -/
def sampleHmac (_secret text : Bytes) : Bytes :=
  if text = encode "CA1:0".toList then
    [173, 2, 139, 136, 114, 228, 188, 174, 30, 78, 74, 193, 144, 46, 141, 231, 211, 129, 199, 206, 101, 26, 203, 11, 168,
      139, 127, 142, 94, 144, 121, 37]
  else text ++ List.replicate 33 0

def sampleSettings : Settings where
  twilioAuthToken := "secret".toList
  secretKey := []
  ttlSeconds := 60

theorem sampleHmac_injective (secret : Bytes) : Function.Injective (sampleHmac secret) := by
  intro x y h
  unfold sampleHmac at h
  split_ifs at h with hx hy hy
  · rw [hx, hy]
  · have := congrArg List.length h
    simp at this
  · have := congrArg List.length h
    simp at this
  · exact List.append_cancel_right h

theorem stream_token_bound_sample :
    verifyStreamToken sampleHmac sampleSettings "CA1".toList
      "0.ad028b8872e4bcae1e4e4ac1902e8de7d381c7ce651acb0ba88b7f8e5e907925".toList 60 = .ok () ↔
        (60 : ℚ) ≤ timestamp none (1 / 2) + sampleSettings.ttlSeconds :=
  (stream_token_bound sampleHmac sampleSettings (sampleHmac_injective _)).2 "CA1".toList none (1 / 2) _
    (by decide +kernel) 60

/-- A token that is made in the middle of a second does not live for the whole lifetime. -/
theorem token_expires_within_ttl :
    ∃ token, signStreamToken sampleHmac sampleSettings "CA1".toList none (1 / 2) = .ok token ∧
      (241 / 4 : ℚ) ≤ 1 / 2 + sampleSettings.ttlSeconds ∧
      verifyStreamToken sampleHmac sampleSettings "CA1".toList token (241 / 4) = .error expired := by
  refine ⟨"0.ad028b8872e4bcae1e4e4ac1902e8de7d381c7ce651acb0ba88b7f8e5e907925".toList, ?_, ?_, ?_⟩
  · decide +kernel
  · decide +kernel
  · decide +kernel

end Voxera.Telephony.StreamAuth

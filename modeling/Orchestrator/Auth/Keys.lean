/-
# RSA keys of a JWKS document

`jwkRSAToPublicKey` of `internal/auth/auth.go`.  Decoding base64 is the business of a library.  The
exponent is gathered in 64 bits, whatever its length, so that a long one is accepted as another
number.
-/
import Orchestrator.Logic.Durations

namespace Orchestrator

/-- `rsa.PublicKey`. -/
structure RSAPublicKey where
  n : ℕ
  e : Int64
deriving DecidableEq

/-- `big.Int.SetBytes`: the number with these digits to the base 256. -/
def bigEndian (bytes : List UInt8) : ℕ := bytes.foldl (fun n b => n * 256 + b.toNat) 0

/-- The loop over the bytes of an exponent, in an `int`. -/
def rsaExponent (bytes : List UInt8) : Int64 :=
  bytes.foldl (fun (e : Int64) b => (e <<< 8) + Int64.ofNat b.toNat) 0

/-- `jwkRSAToPublicKey`, with `base64.RawURLEncoding.DecodeString`. -/
def jwkRSAToPublicKey (decodeString : String → Except String (List UInt8)) (nRaw eRaw : String) :
    Except String RSAPublicKey := do
  let nBytes ← decodeString (trimSpace nRaw)
  let eBytes ← decodeString (trimSpace eRaw)
  if rsaExponent eBytes ≤ 0 then .error "invalid rsa exponent"
  else .ok { n := bigEndian nBytes, e := rsaExponent eBytes }

/-! ### The exponent -/

lemma Int64.shiftLeft_eight (e : Int64) : e <<< 8 = e * 256 := by
  have height : BitVec.smod (8 : Int64).toBitVec 64 = 8#64 := by decide
  apply Int64.toBitVec_inj.mp
  rw [Int64.toBitVec_mul, Int64.toBitVec_shiftLeft, height, BitVec.shiftLeft_eq',
    BitVec.shiftLeft_eq_mul_twoPow]
  rfl

/-- The loop computes modulo `2 ^ 64`. -/
lemma rsaExponent_eq (bytes : List UInt8) : rsaExponent bytes = Int64.ofInt (bigEndian bytes) := by
  have hfold : ∀ n : ℕ, bytes.foldl (fun (e : Int64) b => (e <<< 8) + Int64.ofNat b.toNat)
      (Int64.ofInt n) = Int64.ofInt ((bytes.foldl (fun n b => n * 256 + b.toNat) n : ℕ) : ℤ) := by
    induction bytes with
    | nil => exact fun _ => rfl
    | cons b bytes ih =>
      intro n
      rw [List.foldl_cons, List.foldl_cons, ← ih, Int64.shiftLeft_eight]
      congr 1
      push_cast
      rw [Int64.ofInt_add, Int64.ofInt_mul]
      rfl
  exact hfold 0

/-- **The exponent is exact** if and only if it fits into 63 bits, or what is left of it in 64 bits
is refused. -/
theorem jwk_exponent_exact_iff (decodeString : String → Except String (List UInt8))
    {nRaw eRaw : String} {nBytes eBytes : List UInt8}
    (hn : decodeString (trimSpace nRaw) = .ok nBytes)
    (he : decodeString (trimSpace eRaw) = .ok eBytes) :
    (∀ key, jwkRSAToPublicKey decodeString nRaw eRaw = .ok key → key.e.toInt = bigEndian eBytes) ↔
      bigEndian eBytes < 2 ^ 63 ∨ wrap64 (bigEndian eBytes) ≤ 0 := by
  have hexp : (rsaExponent eBytes).toInt = wrap64 (bigEndian eBytes) := by rw [rsaExponent_eq, wrap64]
  have hresult : jwkRSAToPublicKey decodeString nRaw eRaw = if rsaExponent eBytes ≤ 0 then
      .error "invalid rsa exponent" else .ok ⟨bigEndian nBytes, rsaExponent eBytes⟩ := by
    rw [jwkRSAToPublicKey, hn, he]
    rfl
  have hpos : rsaExponent eBytes ≤ 0 ↔ wrap64 (bigEndian eBytes) ≤ 0 := by
    rw [Int64.le_iff_toInt_le, hexp]
    rfl
  rw [hresult]
  by_cases hle : wrap64 (bigEndian eBytes) ≤ 0
  · rw [if_pos (hpos.mpr hle)]
    exact ⟨fun _ => .inr hle, by rintro - key ⟨⟩⟩
  · rw [if_neg fun h => hle (hpos.mp h)]
    constructor
    · intro h
      have hexact := h _ rfl
      rw [hexp] at hexact
      have hlt := wrap64_lt (bigEndian eBytes)
      rw [hexact] at hlt
      exact .inl (by exact_mod_cast hlt)
    · rintro (hlt | h) key hkey
      · cases hkey
        rw [hexp]
        exact Int64.toInt_ofInt_of_le (by omega) (by omega)
      · exact absurd h hle

/-- A decoder that knows two numbers. -/
def decodeTwo : String → Except String (List UInt8)
  | "AQAB" => .ok [1, 0, 1]
  | "AQAAAAAAAAAD" => .ok [1, 0, 0, 0, 0, 0, 0, 0, 3]
  | _ => .error "illegal base64 data"

/-- The usual exponent is exact. -/
theorem jwk_exponent_exact_usual : decodeTwo (trimSpace "AQAB") = .ok [1, 0, 1] ∧
    ∀ key, jwkRSAToPublicKey decodeTwo "AQAB" "AQAB" = .ok key → key.e.toInt = 65537 := by
  have hbytes : decodeTwo (trimSpace "AQAB") = .ok [1, 0, 1] := by decide +kernel
  exact ⟨hbytes, (jwk_exponent_exact_iff decodeTwo hbytes hbytes).mpr (.inl (by decide))⟩

/-- An exponent of nine bytes is taken for 3. -/
theorem jwk_exponent_wraps :
    decodeTwo (trimSpace "AQAAAAAAAAAD") = .ok [1, 0, 0, 0, 0, 0, 0, 0, 3] ∧
      bigEndian [1, 0, 0, 0, 0, 0, 0, 0, 3] = 2 ^ 64 + 3 ∧
      jwkRSAToPublicKey decodeTwo "AQAB" "AQAAAAAAAAAD" = .ok ⟨65537, 3⟩ := by
  decide +kernel

end Orchestrator

import ProvenoOracle.Rust.Run
import ProvenoOracle.Codec.Der

/-! # Certificates and the external crates

The parts of a parsed certificate that `tls/verify.rs` reads, and the external crates it calls:
`x509_cert` (parsing and re-encoding), `sha2`, `p256`, `p384`, `rsa`, and the trust-anchor list
of `webpki_roots`. The crates are one record of functions, `Crates`, so that every result is
stated for arbitrary ones; what a result assumes about them is a named hypothesis.
-/

set_option autoImplicit false

namespace ProvenoOracle

/-! ## Object identifiers -/

/-- An object identifier, kept as its DER content octets (as `const-oid` keeps it). -/
structure ObjectIdentifier where
  octets : Bytes
  deriving DecidableEq, Repr

/-- One arc in base 128: the high bit is set on every octet but the last. -/
def arcOctets (n : Nat) : Bytes :=
  (((Nat.digits 128 n).drop 1).reverse.map fun d => UInt8.ofNat (128 + d))
    ++ [UInt8.ofNat (n % 128)]

/-- `ObjectIdentifier::new_unwrap` on the arcs of a dotted string. -/
def ObjectIdentifier.newUnwrap : List Nat → ObjectIdentifier
  | a :: b :: arcs => ⟨arcOctets (40 * a + b) ++ arcs.flatMap arcOctets⟩
  | _ => ⟨[]⟩

/-- id-ecPublicKey -/
def ID_EC_PUBLIC_KEY : ObjectIdentifier := .newUnwrap [1, 2, 840, 10045, 2, 1]
/-- rsaEncryption -/
def RSA_OID : ObjectIdentifier := .newUnwrap [1, 2, 840, 113549, 1, 1, 1]
/-- prime256v1 / secp256r1 -/
def SECP256R1 : ObjectIdentifier := .newUnwrap [1, 2, 840, 10045, 3, 1, 7]
/-- secp384r1 -/
def P384_OID : ObjectIdentifier := .newUnwrap [1, 3, 132, 0, 34]
/-- ecdsa-with-SHA256 -/
def SHA256_ECDSA : ObjectIdentifier := .newUnwrap [1, 2, 840, 10045, 4, 3, 2]
/-- ecdsa-with-SHA384 -/
def SHA384_ECDSA : ObjectIdentifier := .newUnwrap [1, 2, 840, 10045, 4, 3, 3]
/-- ecdsa-with-SHA512 -/
def SHA512_ECDSA : ObjectIdentifier := .newUnwrap [1, 2, 840, 10045, 4, 3, 4]
/-- sha256WithRSAEncryption -/
def SHA256_RSA : ObjectIdentifier := .newUnwrap [1, 2, 840, 113549, 1, 1, 11]
/-- sha384WithRSAEncryption -/
def SHA384_RSA : ObjectIdentifier := .newUnwrap [1, 2, 840, 113549, 1, 1, 12]
/-- sha512WithRSAEncryption -/
def SHA512_RSA : ObjectIdentifier := .newUnwrap [1, 2, 840, 113549, 1, 1, 13]
/-- basicConstraints -/
def BASIC_CONSTRAINTS_OID : ObjectIdentifier := .newUnwrap [2, 5, 29, 19]
/-- subjectAltName -/
def SAN_OID : ObjectIdentifier := .newUnwrap [2, 5, 29, 17]

example : ID_EC_PUBLIC_KEY.octets = [0x2a, 0x86, 0x48, 0xce, 0x3d, 0x02, 0x01] := by decide
example : RSA_OID.octets = [0x2a, 0x86, 0x48, 0x86, 0xf7, 0x0d, 0x01, 0x01, 0x01] := by decide

/-! ## Parsed certificates -/

/-- `der::asn1::BitString`. -/
structure BitString where
  unusedBits : Nat
  rawBytes : Bytes
  deriving DecidableEq

/-- `BitString::as_bytes`: the bytes, unless some bits of the last one are unused. -/
def BitString.asBytes (s : BitString) : Option Bytes :=
  if s.unusedBits = 0 then some s.rawBytes else none

/-- `der::Any`: a tag and its content octets. -/
structure AnyDer where
  tag : UInt8
  value : Bytes
  deriving DecidableEq

/-- `AlgorithmIdentifier`. -/
structure AlgorithmIdentifier where
  oid : ObjectIdentifier
  parameters : Option AnyDer
  deriving DecidableEq

/-- `SubjectPublicKeyInfo`. -/
structure SubjectPublicKeyInfo where
  algorithm : AlgorithmIdentifier
  subjectPublicKey : BitString
  deriving DecidableEq

/-- An extension: its OID and the content of its OCTET STRING. -/
structure Extension where
  extnId : ObjectIdentifier
  extnValue : Bytes
  deriving DecidableEq

/-- The fields of a TBSCertificate that the code reads. `notAfter` is the validity's end in
seconds since the Unix epoch (`not_after.to_unix_duration().as_secs()`). -/
structure TbsCertificate where
  subjectPublicKeyInfo : SubjectPublicKeyInfo
  extensions : Option (List Extension)
  notAfter : UInt64
  deriving DecidableEq

/-- A parsed certificate. -/
structure Certificate where
  tbsCertificate : TbsCertificate
  signatureAlgorithm : AlgorithmIdentifier
  signature : BitString
  deriving DecidableEq

/-! ## DER of a SubjectPublicKeyInfo -/

open Codec in
/-- `AlgorithmIdentifier ::= SEQUENCE { OBJECT IDENTIFIER, ANY OPTIONAL }`. -/
def algorithmDer (a : AlgorithmIdentifier) : Bytes :=
  tlv 0x30 (tlv 0x06 a.oid.octets ++ (a.parameters.map fun p => tlv p.tag p.value).getD [])

open Codec in
/-- The content of `SubjectPublicKeyInfo ::= SEQUENCE { AlgorithmIdentifier, BIT STRING }`. -/
def spkiContent (spki : SubjectPublicKeyInfo) : Bytes :=
  algorithmDer spki.algorithm ++
    tlv 0x03 (UInt8.ofNat spki.subjectPublicKey.unusedBits :: spki.subjectPublicKey.rawBytes)

/-! ## The crates -/

/-- The ECDSA implementation of one curve (`p256::ecdsa`, `p384::ecdsa`). -/
structure EcdsaCrate where
  VerifyingKey : Type
  Signature : Type
  /-- `VerifyingKey::from_sec1_bytes` -/
  fromSec1Bytes : Bytes → Option VerifyingKey
  /-- `Signature::from_der` -/
  signatureFromDer : Bytes → Option Signature
  /-- `VerifyingKey::verify_prehash` -/
  verifyPrehash : VerifyingKey → Bytes → Signature → Bool

/-- The digest a PKCS#1 v1.5 verifying key is instantiated with. -/
inductive Sha2 where
  | sha256
  | sha384
  | sha512
  deriving DecidableEq

/-- `rsa`, restricted to PKCS#1 v1.5 verification. -/
structure RsaCrate where
  RsaPublicKey : Type
  Signature : Type
  /-- `RsaPublicKey::from_pkcs1_der` -/
  fromPkcs1Der : Bytes → Option RsaPublicKey
  /-- `pkcs1v15::Signature::try_from` -/
  signatureTryFrom : Bytes → Option Signature
  /-- `VerifyingKey::<D>::new(key).verify(msg, sig)` -/
  verify : Sha2 → RsaPublicKey → Bytes → Signature → Bool

/-- A `webpki_roots` trust anchor: the inner content of its SubjectPublicKeyInfo. -/
structure TrustAnchor where
  subjectPublicKeyInfo : Bytes
  deriving DecidableEq

/-- The external crates. -/
structure Crates where
  /-- `Certificate::from_der` -/
  certificateFromDer : Bytes → Option Certificate
  /-- `SubjectPublicKeyInfo::to_der` -/
  spkiToDer : SubjectPublicKeyInfo → Option Bytes
  /-- `Any::decode_as::<ObjectIdentifier>` -/
  decodeAsOid : AnyDer → Option ObjectIdentifier
  /-- `ObjectIdentifier::from_der` -/
  oidFromDer : Bytes → Option ObjectIdentifier
  sha256 : Bytes → ByteArr 32
  sha384 : Bytes → ByteArr 48
  sha512 : Bytes → ByteArr 64
  p256 : EcdsaCrate
  p384 : EcdsaCrate
  rsa : RsaCrate
  /-- `webpki_roots::TLS_SERVER_ROOTS` -/
  tlsServerRoots : List TrustAnchor

end ProvenoOracle

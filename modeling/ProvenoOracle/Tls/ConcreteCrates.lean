import ProvenoOracle.Tls.Chain

/-! # Concrete crates

Crates that can be run: an X.509 parser that knows finitely many P-256 certificates, the real
DER encoders, and tables for SHA-256 and for the P-256 signatures that verify. A certificate is
described once (`P256Cert`) and both its DER encoding and its parse are computed from the
description, so the parser is right about every certificate it knows
(`concreteCrates_parse`).

Below them stand five certificates of a small infrastructure whose only trust anchor is
`rootCert`'s key. The numbers are real: the digests are SHA-256, and the listed signatures
verify under the listed keys.
-/

set_option autoImplicit false

namespace ProvenoOracle

open Codec

/-! ## P-256 certificates -/

/-- What varies between the P-256 certificates: the SEC1 encoding of the key, the extensions,
the SHA-256 digest of the TBSCertificate and the DER signature. -/
structure P256Cert where
  sec1 : Bytes
  extensions : List Extension
  digest : Nat
  signature : Bytes

namespace P256Cert

variable (c : P256Cert)

def spki : SubjectPublicKeyInfo :=
  ⟨⟨ID_EC_PUBLIC_KEY, some ⟨0x06, SECP256R1.octets⟩⟩, ⟨0, c.sec1⟩⟩

def signatureAlgorithm : AlgorithmIdentifier := ⟨SHA256_ECDSA, none⟩

/-- 2024-01-01 and 2034-01-01, as UTCTime. -/
def validityDer : Bytes :=
  tlv 0x30
    (tlv 0x17 [0x32, 0x34, 0x30, 0x31, 0x30, 0x31, 0x30, 0x30, 0x30, 0x30, 0x30, 0x30, 0x5a] ++
      tlv 0x17 [0x33, 0x34, 0x30, 0x31, 0x30, 0x31, 0x30, 0x30, 0x30, 0x30, 0x30, 0x30, 0x5a])

def extensionDer (e : Extension) : Bytes :=
  tlv 0x30 (tlv 0x06 e.extnId.octets ++ tlv 0x04 e.extnValue)

/-- The content of the TBSCertificate: version 3, serial number 1, empty names. -/
def tbsContent : Bytes :=
  tlv 0xa0 (tlv 0x02 [0x02]) ++ tlv 0x02 [0x01] ++ algorithmDer signatureAlgorithm ++
    tlv 0x30 [] ++ validityDer ++ tlv 0x30 [] ++ tlv 0x30 (spkiContent c.spki) ++
    tlv 0xa3 (tlv 0x30 (c.extensions.flatMap extensionDer))

def tbsDer : Bytes := tlv 0x30 c.tbsContent

/-- What follows the TBSCertificate. -/
def tailDer : Bytes := algorithmDer signatureAlgorithm ++ tlv 0x03 (0 :: c.signature)

/-- The DER encoding. -/
def der : Bytes := tlv 0x30 (c.tbsDer ++ c.tailDer)

/-- The parse. -/
def parsed : Certificate where
  tbsCertificate := ⟨c.spki, some c.extensions, 2019686400⟩
  signatureAlgorithm := signatureAlgorithm
  signature := ⟨0, c.signature⟩

end P256Cert

/-! ## The crates -/

/-- `Any::decode_as::<ObjectIdentifier>` on the identifiers in use. -/
def concreteDecodeAsOid (a : AnyDer) : Option ObjectIdentifier :=
  if a.tag = 0x06 then some ⟨a.value⟩ else none

/-- `ObjectIdentifier::from_der` on the identifiers in use: tag, short length, content. -/
def concreteOidFromDer : Bytes → Option ObjectIdentifier
  | tag :: len :: octets =>
      if tag = 0x06 ∧ len.toNat < 128 ∧ len.toNat = octets.length then some ⟨octets⟩ else none
  | _ => none

/-- P-256 with the given keys and verifying (key, prehash, signature) triples. -/
def tableP256 (keys : List Bytes) (valid : List (Bytes × Bytes × Bytes)) : EcdsaCrate where
  VerifyingKey := Bytes
  Signature := Bytes
  fromSec1Bytes b := if b ∈ keys then some b else none
  signatureFromDer := some
  verifyPrehash key h sig := (key, h, sig) ∈ valid

/-- A curve none of whose keys occurs. -/
def noKeys : EcdsaCrate where
  VerifyingKey := Empty
  Signature := Empty
  fromSec1Bytes _ := none
  signatureFromDer _ := none
  verifyPrehash _ _ _ := false

/-- RSA when no PKCS#1 key occurs. -/
def noRsaKeys : RsaCrate where
  RsaPublicKey := Empty
  Signature := Bytes
  fromPkcs1Der _ := none
  signatureTryFrom := some
  verify _ _ _ _ := false

/-- Crates that know the certificates `known`, each with the key that signed it if that key is
one of theirs, and trust the keys of `roots`. -/
def concreteCrates (known : List P256Cert) (issued : List (P256Cert × P256Cert))
    (roots : List P256Cert) : Crates where
  certificateFromDer d := (known.find? fun c => c.der = d).map P256Cert.parsed
  spkiToDer spki := some (tlv 0x30 (spkiContent spki))
  decodeAsOid := concreteDecodeAsOid
  oidFromDer := concreteOidFromDer
  sha256 m :=
    ⟨toBeBytes 32 (((known.find? fun c => c.tbsDer = m).map P256Cert.digest).getD 0),
      toBeBytes_length _ _⟩
  sha384 _ := ⟨List.replicate 48 0, by simp⟩
  sha512 _ := ⟨List.replicate 64 0, by simp⟩
  p256 := tableP256 (known.map P256Cert.sec1)
    (issued.map fun p => (p.1.sec1, toBeBytes 32 p.2.digest, p.2.signature))
  p384 := noKeys
  rsa := noRsaKeys
  tlsServerRoots := roots.map fun c => ⟨spkiContent c.spki⟩

/-- What the concrete parser accepts is the encoding of a certificate it knows. -/
theorem concreteCrates_parse {known roots : List P256Cert} {issued : List (P256Cert × P256Cert)}
    {d : Bytes} {cert : Certificate}
    (h : (concreteCrates known issued roots).certificateFromDer d = some cert) :
    ∃ c ∈ known, d = c.der ∧ cert = c.parsed := by
  obtain ⟨c, hfind, rfl⟩ := Option.map_eq_some_iff.mp h
  have hder : c.der = d := by simpa using List.find?_some hfind
  exact ⟨c, List.mem_of_find?_eq_some hfind, hder.symm, rfl⟩

/-! ## A small infrastructure -/

/-- A dNSName entry for `name`, as a SubjectAltName extension. -/
def sanFor (name : Bytes) : Extension := ⟨SAN_OID, tlv 0x30 (tlv 0x82 name)⟩

def rootCert : P256Cert where
  sec1 := 0x04 :: toBeBytes 64
    0x9316f6febd3b2e7de97e65d6a560fed359909fd89e66a64248f7920353cd21542679757200bb30be564ce4edf7cf327768d9d7c1cc0604c6983d952f6ad358db
  extensions := [⟨BASIC_CONSTRAINTS_OID, tlv 0x30 (tlv 0x01 [0xff])⟩]
  digest := 0xdb9901899800581e49b93f271ef9938429354e8e6c240e5e63b4dd93451b80f9
  signature := toBeBytes 71
    0x3045022051b6e779dd9b5d52c90b4f8b044a28701a30c6d34639b8fd8eda0197692669fd022100ed2ed0aaf8289579356e68eda2d81af738cf4dce56a639358f1344c8b01e1f30

/-- An end-entity certificate for `a.b`, signed by the root. -/
def leafCert : P256Cert where
  sec1 := 0x04 :: toBeBytes 64
    0xb0b89a45cdb9b34ee9a5d7c47416ddd5b061fba900e66020b55eb4b8bb470344a0abd9c88b88b1865221ab97a695738f9923cadf1e8edba0671945066f6eebc6
  extensions := [sanFor [0x61, 0x2e, 0x62]]
  digest := 0x1c131d5bd9ebfb10099f687df0d06b2e99eb9f0f2b4479ea2076f8372b157b40
  signature := toBeBytes 71
    0x3045022100f43a9e294ef2c2695ab3d0102e3c3ff418cd50251ec5236d0daca94faac0a875022036fc1ec8ad8bd60dffe5ff7b1f80796282861c4e4da044d41ebaa529d461c466

/-- A certificate for `c.d`, signed with the key of `leafCert`. -/
def mintedCert : P256Cert where
  sec1 := 0x04 :: toBeBytes 64
    0x905dffe6d5d23bb25bb3e20b81d72495b232092f9b4145feade948f4bbbc03d86875868ae7c794d6411f9fcec52d2a62e22759accee149f812b2868743814f1a
  extensions := [sanFor [0x63, 0x2e, 0x64]]
  digest := 0xd4caba6e24e0ee4b207629d8d0ca131fab0fc05beb4f45f0607b4863acebe67e
  signature := toBeBytes 71
    0x3045022100e3ef02a92812e18427e917ab07d4c0d3ca782a307c0406a23a493adce88f93cc022076866c4f386f9d57507f435505084d6f6253ae03b99400ea0c9f1f3e371b9210

/-- A certificate for `c.d` that carries the root's key; its signature verifies under no key. -/
def borrowedKeyCert : P256Cert where
  sec1 := rootCert.sec1
  extensions := [sanFor [0x63, 0x2e, 0x64]]
  digest := 0xdbbdc330cb3c5b765c9fbae3e68d2864596b404e9b19328a4322f6d346e0bc65
  signature := toBeBytes 71
    0x3045022061b2a8000505eee2e6a950288962b9c1a3eea4e90fea713afcd1a9abafcbfb4602210098a738981feb400080a85c9a6d6ae57c9c7475734d00254da6a9ab55ad46519b

/-- An end-entity certificate for `a.b`, signed by the root, whose key is that of `leafCert` in
compressed form. -/
def compressedCert : P256Cert where
  sec1 := 0x02 :: toBeBytes 32
    0xb0b89a45cdb9b34ee9a5d7c47416ddd5b061fba900e66020b55eb4b8bb470344
  extensions := [sanFor [0x61, 0x2e, 0x62]]
  digest := 0x779130767c2529462b87ed023a0e9aef470c20a3a66c3319d84599350ae9c858
  signature := toBeBytes 72
    0x30460221009fb5ca9d05ac1ef67da2efe76226b40f4148fe5014b95d82fed6f7fb8b8d235502210082c6e313351a986ecfffe80cf02e2eaa9d00122d3a8580910c8d0d0de1c80625

/-- The infrastructure: the root signs itself and the two end entities, and the key of
`leafCert` has signed `mintedCert`. -/
def smallPki : Crates :=
  concreteCrates [rootCert, leafCert, mintedCert, borrowedKeyCert, compressedCert]
    [(rootCert, rootCert), (rootCert, leafCert), (leafCert, mintedCert),
      (rootCert, compressedCert)]
    [rootCert]

end ProvenoOracle

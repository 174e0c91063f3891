import ProvenoOracle.Rust.Str
import ProvenoOracle.Tls.X509
import ProvenoOracle.Tls.DerReader

/-! # Hostname matching

The Subject Alternative Name check of `tls/verify.rs`: `hostname_matches_cert` finds the SAN
extension, `san_contains_hostname` walks its GeneralName entries, and `dns_name_matches`
compares one dNSName with the hostname. Rust strings are Lean strings: both are sequences of
Unicode scalar values stored as UTF-8.
-/

set_option autoImplicit false

namespace ProvenoOracle

/-! ## DNS names -/

/-- `str::eq_ignore_ascii_case` -/
def eqIgnoreAsciiCase (a b : List Char) : Bool := a.map Char.toLower = b.map Char.toLower

/-- `dns_name_matches`: case-insensitive matching with a single-label wildcard. -/
def dnsNameMatches (pattern hostname : String) : Bool :=
  match pattern.toList with
  | '*' :: '.' :: wcSuffix =>
      match hostname.toList.span (· ≠ '.') with
      | (label, '.' :: rest) => !label.contains '.' && eqIgnoreAsciiCase rest wcSuffix
      | (_, _) => false
  | _ => eqIgnoreAsciiCase pattern.toList hostname.toList

/-! ## The SAN extension -/

variable (t : Target)

/-- A round of the loop that reads a TLV moves on, by at least two octets, and stays inside the
sequence. -/
theorem sanScan_advances {t : Target} {seqContent content : Bytes} {pos totalLen next : Nat}
    {tag : UInt8} (hlen : seqContent.length < 2 ^ t.bits) (hpos : pos < seqContent.length)
    (htlv : derReadTlv t (seqContent.drop pos) = .ok (some (tag, content, totalLen)))
    (hnext : usizeAdd t pos totalLen = .ok next) :
    next = pos + totalLen ∧ pos + 2 ≤ next ∧ next ≤ seqContent.length := by
  obtain ⟨s, r, hs, rfl, hcat⟩ := tlvAt_some (derReadTlv_some htlv)
  have hge := hs.length_ge
  have hle : s.length ≤ seqContent.length - pos := by
    have hcount := congrArg List.length hcat
    rw [List.length_drop, List.length_append] at hcount
    omega
  rw [usizeAdd_ok (by omega)] at hnext
  cases hnext
  omega

/-- The loop of `san_contains_hostname` from position `pos` on, in a slice whose length is a
`usize`. -/
def sanScan (seqContent : Bytes) (hostname : String) (hlen : seqContent.length < 2 ^ t.bits)
    (pos : Nat) : Run Bool :=
  if _hpos : pos < seqContent.length then
    match _htlv : derReadTlv t (seqContent.drop pos) with
    | .error p => .error p
    | .ok none => .ok false
    | .ok (some (tag, content, totalLen)) =>
        if tag = 0x82 ∧ (strFromUtf8 content).any (dnsNameMatches · hostname) then
          .ok true
        else
          match _hnext : usizeAdd t pos totalLen with
          | .error p => .error p
          | .ok next => sanScan seqContent hostname hlen next
  else .ok false
termination_by seqContent.length - pos
decreasing_by
  have := sanScan_advances hlen _hpos _htlv _hnext
  omega

/-- `san_contains_hostname`: does any dNSName entry of a SubjectAltName value match? -/
def sanContainsHostname (sanDer : Bytes) (hostname : String) : Run Bool :=
  match h : derInner t sanDer 0x30 with
  | .error p => .error p
  | .ok none => .ok false
  | .ok (some seqContent) => sanScan t seqContent hostname (derInner_length_lt h) 0

/-- `hostname_matches_cert`: the first SAN extension decides; without one there is no match. -/
def hostnameMatchesCert (hostname : String) (cert : Certificate) : Run Bool :=
  match cert.tbsCertificate.extensions with
  | none => .ok false
  | some exts =>
      match exts.find? (·.extnId = SAN_OID) with
      | none => .ok false
      | some ext => sanContainsHostname t ext.extnValue hostname

end ProvenoOracle

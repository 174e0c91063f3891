import ProvenoOracle.Codec.Split
import ProvenoOracle.Tls.Hostname

/-! # Hostname matching, label by label

`dns_name_matches` works on prefixes and on the first dot of the hostname. Here it is compared
with the matching rule over lists of labels: a pattern whose first label is `*` and that has
further labels stands for one label of any kind, and any other pattern for itself.
-/

set_option autoImplicit false

namespace ProvenoOracle

/-! ## The rule over labels -/

/-- The labels of a name: its pieces between the dots. -/
def labels (s : String) : List (List Char) := s.toList.splitOn '.'

/-- Equality of two labels up to ASCII case. -/
def LabelEq (a b : List Char) : Prop := eqIgnoreAsciiCase a b = true

instance (a b : List Char) : Decidable (LabelEq a b) := inferInstanceAs (Decidable (_ = true))

/-- A wildcard pattern: the label `*`, and at least one label after it. -/
def IsWildcard (pattern : List (List Char)) : Prop :=
  pattern.head? = some ['*'] ∧ 2 ≤ pattern.length

instance (pattern : List (List Char)) : Decidable (IsWildcard pattern) :=
  inferInstanceAs (Decidable (_ ∧ _))

/-- The rule: a wildcard matches as many labels as it has, the first one being any label and
the others equal up to case; any other pattern matches the same labels up to case. -/
def LabelsMatch (pattern hostname : List (List Char)) : Prop :=
  IsWildcard pattern ∧ hostname.length = pattern.length ∧
      List.Forall₂ LabelEq pattern.tail hostname.tail ∨
    ¬ IsWildcard pattern ∧ List.Forall₂ LabelEq pattern hostname

/-- The same rule where the label that stands for the wildcard must not be empty. -/
def LabelsMatchNonempty (pattern hostname : List (List Char)) : Prop :=
  IsWildcard pattern ∧ hostname.length = pattern.length ∧ hostname.head? ≠ some [] ∧
      List.Forall₂ LabelEq pattern.tail hostname.tail ∨
    ¬ IsWildcard pattern ∧ List.Forall₂ LabelEq pattern hostname

/-! ## Labels and ASCII case -/

/-- Lowering the case neither makes a dot nor removes one. -/
theorem toLower_eq_dot (c : Char) : c.toLower = '.' ↔ c = '.' := by
  constructor
  · intro h
    -- only the capital letters are changed, to codes far from that of the dot
    by_cases hc : c.val ≥ 'A'.val ∧ c.val ≤ 'Z'.val
    · have hlower : c.toLower.val = c.val + 32 := congrArg Char.val (dif_pos hc)
      have hlow : 65 ≤ c.val.toNat := UInt32.le_iff_toNat_le.mp hc.1
      have hhigh : c.val.toNat ≤ 90 := UInt32.le_iff_toNat_le.mp hc.2
      have hsum : (c.val + 32).toNat = 46 := by
        rw [← hlower, h]
        rfl
      rw [UInt32.toNat_add, show (32 : UInt32).toNat = 32 from rfl] at hsum
      omega
    · have hsame : c.toLower = c := dif_neg hc
      rwa [hsame] at h
  · rintro rfl
    rfl

/-- Two names are equal up to case iff they are so label by label. -/
theorem eqIgnoreAsciiCase_iff_labels (a b : List Char) :
    eqIgnoreAsciiCase a b = true ↔ List.Forall₂ LabelEq (a.splitOn '.') (b.splitOn '.') := by
  have hrel : LabelEq = fun a b => a.map Char.toLower = b.map Char.toLower := by
    funext x y
    rw [LabelEq, eqIgnoreAsciiCase, decide_eq_true_eq]
  rw [eqIgnoreAsciiCase, decide_eq_true_iff, Split.map_eq_map_iff_forall₂ toLower_eq_dot, hrel]

/-- A pattern is a wildcard over its labels iff it begins with `*.`. -/
theorem isWildcard_iff_starDot (cs : List Char) :
    IsWildcard (cs.splitOn '.') ↔ ∃ suffix, cs = '*' :: '.' :: suffix := by
  constructor
  · rintro ⟨hhead, hlength⟩
    have hjoin : ['.'].intercalate (cs.splitOn '.') = cs := List.intercalate_splitOn '.'
    -- with a second label, the joined text goes on with a dot behind the first one
    match hlabels : cs.splitOn '.', hhead, hlength with
    | [_], _, hlength => simp at hlength
    | first :: second :: others, hhead, _ =>
        obtain rfl : first = ['*'] := by simpa using hhead
        rw [hlabels, List.intercalate_cons_cons] at hjoin
        exact ⟨_, hjoin.symm⟩
  · rintro ⟨suffix, rfl⟩
    have hlabels := List.splitOn_append_cons_self_of_not_mem
      (show '.' ∉ ['*'] by decide) suffix
    rw [List.singleton_append] at hlabels
    rw [hlabels]
    refine ⟨rfl, ?_⟩
    have hpos := List.length_pos_of_ne_nil (List.splitOn_ne_nil '.' suffix)
    rw [List.length_cons]
    omega

/-! ## The code and the rule -/

/-- A pattern that does not begin with `*.` is compared whole. -/
theorem dnsNameMatches_exact {pattern : String}
    (hpattern : ¬ ∃ suffix, pattern.toList = '*' :: '.' :: suffix) (hostname : String) :
    dnsNameMatches pattern hostname = eqIgnoreAsciiCase pattern.toList hostname.toList := by
  rw [dnsNameMatches]
  split
  · next suffix heq => exact absurd ⟨suffix, heq⟩ hpattern
  · rfl

/-- A wildcard never matches a hostname without a dot. -/
theorem dnsNameMatches_wildcard_no_dot {pattern hostname : String} {suffix : List Char}
    (hpattern : pattern.toList = '*' :: '.' :: suffix) (hdot : '.' ∉ hostname.toList) :
    dnsNameMatches pattern hostname = false := by
  have hall : ∀ c ∈ hostname.toList, decide (c ≠ '.') = true := by
    intro c hc
    exact decide_eq_true fun heq => hdot (heq ▸ hc)
  have hspan : hostname.toList.span (· ≠ '.') = (hostname.toList, []) := by
    rw [List.span_eq_takeWhile_dropWhile, List.takeWhile_eq_self_iff.mpr hall,
      List.dropWhile_eq_nil_iff.mpr hall]
  simp only [dnsNameMatches, hpattern, hspan]

/-- A wildcard compares what follows the first dot of the hostname with what follows its own. -/
theorem dnsNameMatches_wildcard_dot {pattern hostname : String} {suffix label rest : List Char}
    (hpattern : pattern.toList = '*' :: '.' :: suffix) (hlabel : '.' ∉ label)
    (hhostname : hostname.toList = label ++ '.' :: rest) :
    dnsNameMatches pattern hostname = eqIgnoreAsciiCase rest suffix := by
  have hall : ∀ c ∈ label, decide (c ≠ '.') = true := by
    intro c hc
    exact decide_eq_true fun heq => hlabel (heq ▸ hc)
  have hspan : hostname.toList.span (· ≠ '.') = (label, '.' :: rest) := by
    rw [hhostname, List.span_eq_takeWhile_dropWhile, List.takeWhile_append_of_pos hall,
      List.dropWhile_append_of_pos hall]
    simp
  have hcontains : label.contains '.' = false := by simpa using hlabel
  simp only [dnsNameMatches, hpattern, hspan, hcontains, Bool.not_false, Bool.true_and]

theorem eqIgnoreAsciiCase_comm (a b : List Char) :
    eqIgnoreAsciiCase a b = eqIgnoreAsciiCase b a := by
  rw [eqIgnoreAsciiCase, eqIgnoreAsciiCase, decide_eq_decide]
  exact eq_comm

/-- **A wildcard pattern and the rule.** The hostname needs a dot; the label before it is free,
and the comparison of the two rests is the comparison of the remaining labels. -/
theorem dnsNameMatches_wildcard_iff {pattern : String} {suffix : List Char}
    (hpattern : pattern.toList = '*' :: '.' :: suffix) (hostname : String) :
    dnsNameMatches pattern hostname = true ↔
      (labels hostname).length = (labels pattern).length ∧
        List.Forall₂ LabelEq (labels pattern).tail (labels hostname).tail := by
  have hlabels : labels pattern = ['*'] :: suffix.splitOn '.' := by
    rw [labels, hpattern]
    exact List.splitOn_append_cons_self_of_not_mem (show '.' ∉ ['*'] by decide) suffix
  have hpos := List.length_pos_of_ne_nil (List.splitOn_ne_nil '.' suffix)
  rcases Split.exists_first '.' hostname.toList with
    ⟨hdot, hone⟩ | ⟨label, rest, hlabel, hhostname, hmore⟩
  · rw [dnsNameMatches_wildcard_no_dot hpattern hdot, labels, hone, hlabels]
    -- the hostname is one label, and the pattern has at least two
    simp only [Bool.false_eq_true, List.length_cons, List.length_nil, false_iff, not_and]
    intro hlength
    omega
  · rw [dnsNameMatches_wildcard_dot hpattern hlabel hhostname, eqIgnoreAsciiCase_comm,
      eqIgnoreAsciiCase_iff_labels, hlabels, labels, hmore]
    constructor
    · intro hrest
      exact ⟨by rw [List.length_cons, List.length_cons, hrest.length_eq], hrest⟩
    · rintro ⟨-, hrest⟩
      exact hrest

/-- **Hostname matching is label-wise.** The label that a wildcard stands for may be any label,
the empty one of a hostname with a leading dot included. -/
theorem dnsNameMatches_iff_labelsMatch (pattern hostname : String) :
    dnsNameMatches pattern hostname = true ↔
      LabelsMatch (labels pattern) (labels hostname) := by
  by_cases hwild : IsWildcard (labels pattern)
  · obtain ⟨suffix, hpattern⟩ := (isWildcard_iff_starDot _).mp hwild
    rw [dnsNameMatches_wildcard_iff hpattern]
    simp [LabelsMatch, hwild]
  · have hexact := mt (isWildcard_iff_starDot pattern.toList).mpr hwild
    rw [dnsNameMatches_exact hexact, eqIgnoreAsciiCase_iff_labels, ← labels, ← labels]
    simp [LabelsMatch, hwild]

/-- The rule with a non-empty first label is not the code's: a hostname that begins with a dot
matches a wildcard. -/
theorem dnsNameMatches_leading_dot :
    ¬ ∀ pattern hostname, dnsNameMatches pattern hostname = true ↔
      LabelsMatchNonempty (labels pattern) (labels hostname) := by
  intro h
  have hmatch : dnsNameMatches "*.example.com" ".example.com" = true := by decide
  have hwild : IsWildcard (labels "*.example.com") := by decide
  have hempty : (labels ".example.com").head? = some [] := by decide
  rcases (h _ _).mp hmatch with ⟨-, -, hne, -⟩ | ⟨hnot, -⟩
  · exact hne hempty
  · exact hnot hwild

end ProvenoOracle

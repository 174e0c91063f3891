import Mathlib.Data.List.Infix

/-! # Reading a stream piece by piece

A reader takes one piece at a time off the front of a buffer and waits when the buffer does not
hold a whole piece. If what it takes does not depend on what comes later (`PieceReader.stable`),
then a stream gives the same pieces however it is cut into chunks (`foldl_feed`). A reader of
this kind is the one that looks for a separator (`separated`).
-/

set_option autoImplicit false

namespace Codec

/-! ## Readers -/

/-- A reader of pieces of type `β` off a buffer. -/
structure PieceReader (α β : Type) where
  /-- The first piece and what follows it, if the buffer holds a whole piece. -/
  next : List α → Option (β × List α)
  shrinks : ∀ {xs : List α} {b : β} {rest : List α}, next xs = some (b, rest) →
    rest.length < xs.length
  stable : ∀ {xs : List α} {b : β} {rest : List α} (ys : List α), next xs = some (b, rest) →
    next (xs ++ ys) = some (b, rest ++ ys)

namespace PieceReader

variable {α β : Type} (R : PieceReader α β)

/-- The pieces that the buffer holds, and what is left. -/
def drain (xs : List α) : List β × List α :=
  match _h : R.next xs with
  | none => ([], xs)
  | some (b, rest) => (b :: (drain rest).1, (drain rest).2)
termination_by xs.length
decreasing_by all_goals exact R.shrinks _h

/-- A chunk arrives: the pieces so far and the buffer. -/
def feed (s : List β × List α) (chunk : List α) : List β × List α :=
  (s.1 ++ (R.drain (s.2 ++ chunk)).1, (R.drain (s.2 ++ chunk)).2)

variable {R}

theorem drain_of_none {xs : List α} (h : R.next xs = none) : R.drain xs = ([], xs) := by
  rw [drain]
  split
  · rfl
  · next heq =>
    rw [h] at heq
    cases heq

theorem drain_of_some {xs rest : List α} {b : β} (h : R.next xs = some (b, rest)) :
    R.drain xs = (b :: (R.drain rest).1, (R.drain rest).2) := by
  rw [drain]
  split
  · next heq =>
    rw [h] at heq
    cases heq
  · next heq =>
    rw [h] at heq
    cases heq
    rfl

theorem next_nil : R.next [] = none := by
  rcases h : R.next [] with - | ⟨b, rest⟩
  · rfl
  · have hlt := R.shrinks h
    cases hlt

/-- **Draining does not depend on where the buffer ends**: what is left of the first part is
drained with the second one. By induction on the first part, piece by piece. -/
theorem drain_append (xs ys : List α) :
    R.drain (xs ++ ys) = ((R.drain xs).1 ++ (R.drain ((R.drain xs).2 ++ ys)).1,
      (R.drain ((R.drain xs).2 ++ ys)).2) := by
  induction hn : xs.length using Nat.strong_induction_on generalizing xs with
  | _ n ih =>
      subst hn
      rcases h : R.next xs with - | ⟨b, rest⟩
      -- nothing is read, so all of it is still there for the second part
      · rw [drain_of_none h]
        rfl
      -- the first piece stays the same with more behind it
      · have hrest := ih rest.length (R.shrinks h) rest rfl
        rw [drain_of_some h, drain_of_some (R.stable ys h), hrest]
        rfl

theorem foldl_feed_from (chunks : List (List α)) : ∀ (pieces : List β) (buffer : List α),
    R.drain buffer = ([], buffer) →
    chunks.foldl R.feed (pieces, buffer) = (pieces ++ (R.drain (buffer ++ chunks.flatten)).1,
      (R.drain (buffer ++ chunks.flatten)).2) := by
  induction chunks with
  | nil =>
      intro pieces buffer hbuffer
      rw [List.foldl_nil, List.flatten_nil, List.append_nil, hbuffer, List.append_nil]
  | cons chunk chunks ih =>
      intro pieces buffer hbuffer
      -- draining leaves a buffer that holds no whole piece
      have hleft : R.drain (R.drain (buffer ++ chunk)).2 = ([], (R.drain (buffer ++ chunk)).2) := by
        have hagain := drain_append (R := R) (buffer ++ chunk) []
        rw [List.append_nil, List.append_nil] at hagain
        have hpieces := List.append_right_eq_self.mp (congrArg Prod.fst hagain).symm
        have hbuffer := (congrArg Prod.snd hagain).symm
        exact Prod.ext hpieces hbuffer
      rw [List.foldl_cons, feed, ih _ _ hleft, List.flatten_cons, ← List.append_assoc,
        drain_append (buffer ++ chunk), List.append_assoc]

/-- **The chunks do not matter**: fed chunk by chunk, a stream gives the pieces it holds as a
whole. -/
theorem foldl_feed (chunks : List (List α)) :
    chunks.foldl R.feed ([], []) = R.drain chunks.flatten := by
  rw [foldl_feed_from chunks [] [] (drain_of_none next_nil)]
  rfl

/-- A stream of encoded pieces gives the pieces and leaves nothing. -/
theorem drain_flatMap {encode : β → List α} {pieces : List β}
    (hread : ∀ b ∈ pieces, ∀ rest, R.next (encode b ++ rest) = some (b, rest)) :
    R.drain (pieces.flatMap encode) = (pieces, []) := by
  induction pieces with
  | nil => exact drain_of_none next_nil
  | cons b pieces ih =>
      have hfirst := hread b (by simp) (pieces.flatMap encode)
      have hrest := ih fun b' hb' => hread b' (by simp [hb'])
      rw [List.flatMap_cons, drain_of_some hfirst, hrest]

end PieceReader

/-! ## Pieces that end with a separator -/

/-- A body starts with the first character of its first line. -/
theorem intercalate_cons_head {α : Type} {sep line : List α} (hne : line ≠ [])
    (lines : List (List α)) : ∃ c rest, c ∈ line ∧ sep.intercalate (line :: lines) = c :: rest := by
  obtain ⟨c, cs, rfl⟩ := List.exists_cons_of_ne_nil hne
  cases lines with
  | nil =>
      rw [List.intercalate_singleton]
      exact ⟨c, cs, List.mem_cons_self, rfl⟩
  | cons other lines =>
      rw [List.intercalate_cons_cons]
      exact ⟨c, _, List.mem_cons_self, rfl⟩

section Separator

variable {α : Type} [DecidableEq α]

/-- The position of the first occurrence of a pattern. -/
def indexOf (pattern : List α) : List α → Option Nat
  | [] => if pattern = [] then some 0 else none
  | x :: xs => if pattern <+: x :: xs then some 0 else (indexOf pattern xs).map (· + 1)

/-- The pattern fits behind its position. -/
theorem indexOf_le {pattern xs : List α} {i : Nat} (h : indexOf pattern xs = some i) :
    i + pattern.length ≤ xs.length := by
  induction xs generalizing i with
  | nil =>
      rw [indexOf] at h
      split at h
      · next hnil =>
        cases h
        rw [hnil]
        exact Nat.le_refl 0
      · cases h
  | cons x xs ih =>
      rw [indexOf] at h
      split at h
      · next hfront =>
        cases h
        rw [Nat.zero_add]
        exact hfront.length_le
      · rcases Option.map_eq_some_iff.mp h with ⟨j, hj, rfl⟩
        have hle := ih hj
        rw [List.length_cons]
        omega

/-- The first occurrence stays the first one when the list goes on. -/
theorem indexOf_append {pattern xs : List α} {i : Nat} (ys : List α)
    (h : indexOf pattern xs = some i) : indexOf pattern (xs ++ ys) = some i := by
  induction xs generalizing i with
  | nil =>
      rw [indexOf] at h
      split at h
      · next hnil =>
        cases h
        subst hnil
        cases ys with
        | nil => rfl
        | cons y ys => rw [List.nil_append, indexOf, if_pos List.nil_prefix]
      · cases h
  | cons x xs ih =>
      rw [indexOf] at h
      rw [List.cons_append, indexOf]
      split at h
      · next hfront =>
        cases h
        have hlonger : pattern <+: x :: (xs ++ ys) := hfront.trans (List.prefix_append (x :: xs) ys)
        rw [if_pos hlonger]
      · next hfront =>
        rcases Option.map_eq_some_iff.mp h with ⟨j, hj, rfl⟩
        -- the later occurrence leaves room for the pattern, so an earlier one would lie in `xs`
        have hle := indexOf_le hj
        have hnot : ¬ pattern <+: x :: (xs ++ ys) := by
          intro hlonger
          apply hfront
          apply List.prefix_of_prefix_length_le hlonger (List.prefix_append (x :: xs) ys)
          rw [List.length_cons]
          omega
        rw [if_neg hnot, ih hj]
        rfl

/-- A list without the first element of the pattern is passed over. -/
theorem indexOf_of_not_mem {h : α} {t line : List α} (hline : h ∉ line) (xs : List α) :
    indexOf (h :: t) (line ++ xs) = (indexOf (h :: t) xs).map (· + line.length) := by
  induction line with
  | nil =>
      rw [List.nil_append]
      cases indexOf (h :: t) xs <;> rfl
  | cons c line ih =>
      rw [List.mem_cons, not_or] at hline
      have hnot : ¬ h :: t <+: c :: (line ++ xs) := by
        rw [List.cons_prefix_cons]
        rintro ⟨heq, -⟩
        exact hline.1 heq
      rw [List.cons_append, indexOf, if_neg hnot, ih hline.2, Option.map_map]
      rfl

/-- The pieces that end with a separator. -/
def separated (h : α) (t : List α) : PieceReader α (List α) where
  next xs := (indexOf (h :: t) xs).map fun i => (xs.take i, xs.drop (i + (h :: t).length))
  shrinks := by
    intro xs b rest hnext
    rcases Option.map_eq_some_iff.mp hnext with ⟨i, hi, hcut⟩
    have hle := indexOf_le hi
    cases hcut
    rw [List.length_drop]
    rw [List.length_cons] at hle ⊢
    omega
  stable := by
    intro xs b rest ys hnext
    rcases Option.map_eq_some_iff.mp hnext with ⟨i, hi, hcut⟩
    have hle := indexOf_le hi
    cases hcut
    rw [indexOf_append ys hi, Option.map_some, List.take_append_of_le_length (by omega),
      List.drop_append_of_le_length hle]

/-- A body whose first separator is the one behind it is read as a piece. -/
theorem separated_next {h : α} {t body : List α}
    (hbody : indexOf (h :: t) (body ++ h :: t) = some body.length) (rest : List α) :
    (separated h t).next (body ++ h :: t ++ rest) = some (body, rest) := by
  show (indexOf (h :: t) (body ++ h :: t ++ rest)).map _ = _
  rw [indexOf_append rest hbody, Option.map_some, List.append_assoc, List.take_left,
    ← List.drop_drop, List.drop_left, List.drop_left]

/-- In a body of lines, none of them empty, the first blank line is the one behind it. -/
theorem indexOf_blank {nl : α} {lines : List (List α)} (hne : lines ≠ [])
    (hlines : ∀ line ∈ lines, line ≠ [] ∧ nl ∉ line) :
    indexOf [nl, nl] ([nl].intercalate lines ++ [nl, nl])
      = some ([nl].intercalate lines).length := by
  induction lines with
  | nil => exact absurd rfl hne
  | cons line lines ih =>
      obtain ⟨-, hline⟩ := hlines line (by simp)
      cases lines with
      | nil =>
          have hhere : indexOf [nl, nl] [nl, nl] = some 0 := by
            rw [indexOf, if_pos (List.prefix_refl _)]
          rw [List.intercalate_singleton, indexOf_of_not_mem hline, hhere, Option.map_some,
            Nat.zero_add]
      | cons line' lines =>
          have hrest := ih (by simp) fun l hl => hlines l (by simp [hl])
          -- behind the line feed comes the first character of the next line
          have hnot : ¬ [nl, nl] <+: nl :: ([nl].intercalate (line' :: lines) ++ [nl, nl]) := by
            obtain ⟨hnonempty, hnext⟩ := hlines line' (by simp)
            obtain ⟨c, rest, hc, hbody⟩ := @intercalate_cons_head α [nl] line' hnonempty lines
            rw [hbody, List.cons_append, List.cons_prefix_cons, List.cons_prefix_cons]
            rintro ⟨-, rfl, -⟩
            exact hnext hc
          rw [List.intercalate_cons_cons, List.append_assoc, List.append_assoc,
            indexOf_of_not_mem hline, List.singleton_append, indexOf, if_neg hnot, hrest]
          simp only [Option.map_some, List.length_append, List.length_cons, List.length_nil,
            Option.some.injEq]
          omega

end Separator

end Codec

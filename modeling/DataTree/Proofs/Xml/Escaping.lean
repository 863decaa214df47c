import DataTree.Proofs.Text.Span
import DataTree.Xml.Escape
import DataTree.Xml.Reference
import Mathlib.Data.String.Basic

namespace DataTree.Xml

open String (utf8Len utf8EncodeChar)

namespace Escape

def written (context : Escape) (c : Char) : List Char := (context.replacement? c).getD [c]

variable {context : Escape} {c : Char}

section Octets

variable {entity : List Char} {start index : Nat}

theorem ascii_of_replacement? (h : context.replacement? c = some entity) : c.toNat < 128 := by
  unfold replacement? at h
  split at h
  case h_5 => cases h
  all_goals decide

theorem octet_of_ascii (h : c.toNat < 128) :
    utf8EncodeChar c = [UInt8.ofNat c.toNat] ∧ Char.ofUInt8 (UInt8.ofNat c.toNat) = c := by
  have hle : c.val.toNat ≤ 127 := Nat.le_of_lt_succ h
  have hchar : (Char.ofUInt8 (UInt8.ofNat c.toNat)).toNat = c.toNat := by
    show (UInt8.ofNat c.toNat).toNat = c.toNat
    rw [UInt8.toNat_ofNat']
    omega
  refine ⟨by rw [utf8EncodeChar, if_pos hle]; rfl, ?_⟩
  rw [← Char.ofNat_toNat (Char.ofUInt8 _), hchar, Char.ofNat_toNat]

theorem octets_of_not_ascii (h : 128 ≤ c.toNat) :
    ∀ octet ∈ utf8EncodeChar c, 128 ≤ (Char.ofUInt8 octet).toNat := by
  have hgt : ¬ c.val.toNat ≤ 127 := Nat.not_le_of_gt h
  have hhigh (n : Nat) (hlow : 128 ≤ n % 256) : 128 ≤ (Char.ofUInt8 (UInt8.ofNat n)).toNat := by
    show 128 ≤ (UInt8.ofNat n).toNat
    rwa [UInt8.toNat_ofNat']
  rw [utf8EncodeChar, if_neg hgt]
  split
  · simp only [List.forall_mem_cons]
    exact ⟨hhigh _ (by omega), hhigh _ (by omega), nofun⟩
  · split
    · simp only [List.forall_mem_cons]
      exact ⟨hhigh _ (by omega), hhigh _ (by omega), hhigh _ (by omega), nofun⟩
    · simp only [List.forall_mem_cons]
      exact ⟨hhigh _ (by omega), hhigh _ (by omega), hhigh _ (by omega), hhigh _ (by omega), nofun⟩

theorem fragmentsFrom_skip {octets : List UInt8}
    (h : ∀ octet ∈ octets, context.replacement? (Char.ofUInt8 octet) = none) (rest : List UInt8) :
    context.fragmentsFrom start index (octets ++ rest) =
      context.fragmentsFrom start (index + octets.length) rest := by
  induction octets generalizing index with
  | nil => rfl
  | cons octet octets ih =>
      obtain ⟨hoctet, hoctets⟩ := List.forall_mem_cons.1 h
      rw [List.cons_append, fragmentsFrom, hoctet]
      dsimp only
      rw [ih hoctets, List.length_cons, Nat.add_assoc, Nat.add_comm 1]

theorem fragmentsFrom_plain (h : context.replacement? c = none) (rest : List UInt8) :
    context.fragmentsFrom start index (utf8EncodeChar c ++ rest) =
      context.fragmentsFrom start (index + c.utf8Size) rest := by
  rw [fragmentsFrom_skip, String.length_utf8EncodeChar]
  intro octet hoctet
  rcases Nat.lt_or_ge c.toNat 128 with hascii | hascii
  · obtain ⟨hone, hchar⟩ := octet_of_ascii hascii
    rw [hone] at hoctet
    rwa [List.mem_singleton.1 hoctet, hchar]
  · have hhigh := octets_of_not_ascii hascii octet hoctet
    cases hentity : context.replacement? (Char.ofUInt8 octet) with
    | none => rfl
    | some entity => exact absurd (ascii_of_replacement? hentity) (Nat.not_lt_of_ge hhigh)

theorem fragmentsFrom_escaped (h : context.replacement? c = some entity) (rest : List UInt8) :
    context.fragmentsFrom start index (utf8EncodeChar c ++ rest) =
      .run start index :: .reference entity ::
        context.fragmentsFrom (index + c.utf8Size) (index + c.utf8Size) rest := by
  obtain ⟨hone, hchar⟩ := octet_of_ascii (ascii_of_replacement? h)
  have hsize : c.utf8Size = 1 := by
    rw [← String.length_utf8EncodeChar, hone]
    rfl
  rw [hone, List.singleton_append, fragmentsFrom, hchar, h, hsize]

end Octets

section Cutting

variable {s : String} {before run rest : List Char}

/-- The ends of a run are octets that characters begin at, or the end of the text. -/
def Fragment.OnBoundaries (s : String) : Fragment → Prop
  | .run start stop => start ≤ stop ∧
      String.Pos.Raw.IsValid s ⟨start⟩ ∧ String.Pos.Raw.IsValid s ⟨stop⟩
  | .reference _ => True

theorem isValid_of_append (h : s.toList = before ++ rest) :
    String.Pos.Raw.IsValid s ⟨utf8Len before⟩ := by
  refine String.Pos.Raw.isValid_iff_exists_append.2
    ⟨String.ofList before, String.ofList rest, ?_, (String.rawEndPos_ofList before).symm⟩
  rw [← String.ofList_append, ← h, String.ofList_toList]

theorem onBoundaries_run (h : s.toList = before ++ run ++ rest) :
    (Fragment.run (utf8Len before) (utf8Len (before ++ run))).OnBoundaries s := by
  refine ⟨?_, isValid_of_append (h.trans (List.append_assoc _ _ _)), isValid_of_append h⟩
  rw [String.utf8Len_append]
  exact Nat.le_add_right _ _

theorem of_run (h : s.toList = before ++ run ++ rest) :
    (Fragment.run (utf8Len before) (utf8Len (before ++ run))).of s = String.ofList run := by
  rw [Fragment.of, String.utf8Len_append, ← String.extract_of_valid before run rest, ← h,
    String.ofList_toList]

/-- Where `before` has been written and `run` is still to be copied, the fragments that follow are
what `run` and the rest of the text are written as. -/
theorem fragmentsFrom_utf8Len {cs : List Char} (h : s.toList = before ++ run ++ cs) :
    (∀ fragment ∈ context.fragmentsFrom (utf8Len before) (utf8Len (before ++ run))
        (cs.flatMap utf8EncodeChar), fragment.OnBoundaries s) ∧
    ((context.fragmentsFrom (utf8Len before) (utf8Len (before ++ run))
        (cs.flatMap utf8EncodeChar)).flatMap fun fragment => (fragment.of s).toList) =
      run ++ cs.flatMap context.written := by
  induction cs generalizing before run with
  | nil =>
      refine ⟨List.forall_mem_singleton.2 (onBoundaries_run h), ?_⟩
      rw [List.flatMap_nil, fragmentsFrom, List.flatMap_singleton, of_run h, String.toList_ofList]
      simp
  | cons c cs ih =>
      rw [List.flatMap_cons, List.flatMap_cons, written]
      cases hentity : context.replacement? c with
      | none =>
          have hnext : s.toList = before ++ (run ++ [c]) ++ cs := by simp [h]
          have hindex : utf8Len (before ++ run) + c.utf8Size =
            utf8Len (before ++ (run ++ [c])) := by simp [Nat.add_assoc]
          rw [fragmentsFrom_plain hentity, hindex]
          simpa using ih hnext
      | some entity =>
          have hnext : s.toList = before ++ run ++ [c] ++ [] ++ cs := by simp [h]
          have hindex : utf8Len (before ++ run) + c.utf8Size = utf8Len (before ++ run ++ [c]) := by
            rw [String.utf8Len_append (before ++ run), String.utf8Len_cons, String.utf8Len_nil,
              Nat.zero_add]
          obtain ⟨hvalid, hwritten⟩ := ih hnext
          rw [List.append_nil] at hvalid hwritten
          rw [fragmentsFrom_escaped hentity, hindex]
          refine ⟨List.forall_mem_cons.2 ⟨onBoundaries_run h, List.forall_mem_cons.2
            ⟨trivial, hvalid⟩⟩, ?_⟩
          rw [List.flatMap_cons, List.flatMap_cons, hwritten, of_run h, Fragment.of,
            String.toList_ofList, String.toList_ofList]
          rfl

theorem onBoundaries_of_mem_fragments (s : String) :
    ∀ fragment ∈ context.fragments s, fragment.OnBoundaries s := by
  have hstart : s.toList = [] ++ [] ++ s.toList := rfl
  exact (fragmentsFrom_utf8Len hstart).1

theorem toList_apply (context : Escape) (s : String) :
    (context.apply s).toList = s.toList.flatMap context.written := by
  have hstart : s.toList = [] ++ [] ++ s.toList := rfl
  rw [apply, String.toList_join, List.flatMap_map]
  exact (fragmentsFrom_utf8Len hstart).2

end Cutting

theorem written_cases (context : Escape) (c : Char) :
    (context.written c = [c] ∧ c ≠ '&' ∧ c ≠ '<' ∧ c ≠ '>' ∧
      (context = .attributeValue → c ≠ '\"')) ∨
    ∃ name, context.written c = '&' :: (name ++ [';']) ∧ (∀ x ∈ name, x.isAlpha = true) ∧
      Reference.predefined? name = some c := by
  by_cases hamp : c = '&'
  · subst hamp
    exact .inr ⟨"amp".toList, rfl, List.all_eq_true.1 rfl, rfl⟩
  by_cases hlt : c = '<'
  · subst hlt
    exact .inr ⟨"lt".toList, rfl, List.all_eq_true.1 rfl, rfl⟩
  by_cases hgt : c = '>'
  · subst hgt
    exact .inr ⟨"gt".toList, rfl, List.all_eq_true.1 rfl, rfl⟩
  by_cases hquot : context = .attributeValue ∧ c = '\"'
  · obtain ⟨rfl, rfl⟩ := hquot
    exact .inr ⟨"quot".toList, rfl, List.all_eq_true.1 rfl, rfl⟩
  have hnone : context.replacement? c = none := by
    unfold replacement?
    split
    next => exact absurd rfl hamp
    next => exact absurd rfl hlt
    next => exact absurd rfl hgt
    next => exact if_neg fun hc => hquot ⟨hc, rfl⟩
    next => rfl
  exact .inl ⟨by rw [written, hnone]; rfl, hamp, hlt, hgt, fun hc hq => hquot ⟨hc, hq⟩⟩

theorem not_mem_written {d : Char}
    (hd : d = '<' ∨ d = '>' ∨ context = .attributeValue ∧ d = '\"') : d ∉ context.written c := by
  intro hmem
  rcases context.written_cases c with ⟨hself, -, hlt, hgt, hquot⟩ | ⟨name, hname, halpha, -⟩
  · rw [hself] at hmem
    obtain rfl := List.mem_singleton.1 hmem
    exact hd.elim hlt (·.elim hgt fun h => hquot h.1 h.2)
  · rw [hname] at hmem
    have hcases : d = '&' ∨ d ∈ name ∨ d = ';' := by simpa using hmem
    have hnot : d.isAlpha = false ∧ d ≠ '&' ∧ d ≠ ';' := by
      rcases hd with rfl | rfl | ⟨-, rfl⟩ <;> decide
    rcases hcases with h | h | h
    · exact hnot.2.1 h
    · exact absurd (halpha d h) (by simp [hnot.1])
    · exact hnot.2.2 h

theorem replacement?_of_ne (h : context.written c ≠ [c]) :
    context.replacement? c = some (context.written c) := by
  unfold written at *
  cases hentity : context.replacement? c with
  | none => exact absurd (by rw [hentity]; rfl) h
  | some entity => rfl

theorem entity_of_written {front back : List Char} (h : context.written c = front ++ '&' :: back) :
    front = [] ∧ context.replacement? c = some (context.written c) := by
  rcases context.written_cases c with ⟨hself, hamp, -⟩ | ⟨name, hname, halpha, -⟩
  · have hmem : '&' ∈ [c] := by
      rw [← hself, h]
      exact List.mem_append_right _ List.mem_cons_self
    exact absurd (List.mem_singleton.1 hmem).symm hamp
  · refine ⟨?_, replacement?_of_ne (by simp [hname])⟩
    cases front with
    | nil => rfl
    | cons d front =>
        rw [h, List.cons_append] at hname
        have htail := (List.cons.inj hname).2
        have hmem : '&' ∈ name ++ [';'] := by
          rw [← htail]
          exact List.mem_append_right _ List.mem_cons_self
        rcases List.mem_append.1 hmem with hin | hin
        · cases halpha '&' hin
        · cases List.mem_singleton.1 hin

end Escape

namespace Reference

theorem alpha_isName {name : List Char} (h : ∀ x ∈ name, x.isAlpha = true) :
    ∀ x ∈ name, isName x = true := by
  intro x hx
  have ha := h x hx
  rw [isName, Bool.and_eq_true, bne_iff_ne, bne_iff_ne]
  constructor
  · rintro rfl
    cases ha
  · rintro rfl
    cases ha

theorem character_named {name : List Char} {c : Char} (halpha : ∀ x ∈ name, x.isAlpha = true)
    (h : predefined? name = some c) (start : Nat) : character start name = .ok c := by
  unfold character
  split
  next => cases halpha '#' List.mem_cons_self
  next => rw [h]

theorem expand_written (context : Escape) (total : Nat) (cs : List Char) :
    expand total (cs.flatMap context.written) = .ok cs := by
  induction cs with
  | nil =>
      rw [List.flatMap_nil, expand]
  | cons c cs ih =>
      rw [List.flatMap_cons]
      rcases context.written_cases c with ⟨hself, hamp, -⟩ | ⟨name, hname, halpha, hfound⟩
      · rw [hself, List.singleton_append, expand, if_neg hamp, ih]
        rfl
      · have hrun := alpha_isName halpha
        have hdrop : (name ++ ';' :: cs.flatMap context.written).dropWhile isName =
            ';' :: cs.flatMap context.written := Text.dropWhile_run hrun (by decide)
        have htake : (name ++ ';' :: cs.flatMap context.written).takeWhile isName = name :=
          Text.takeWhile_run hrun (by decide)
        rw [hname, List.cons_append, List.append_assoc, List.singleton_append, expand, if_pos rfl]
        dsimp only
        split
        next after h =>
          rw [hdrop] at h
          cases h
          rw [htake, character_named halpha hfound, ih]
          rfl
        next h => exact absurd hdrop (h _)

theorem expandAll_written (context : Escape) (cs : List Char) :
    expandAll (cs.flatMap context.written) = .ok cs := expand_written context _ cs

theorem resolve_named {name : List Char} {c : Char} (h : predefined? name = some c) :
    resolve name = .ok [c] := by
  unfold resolve
  rw [h]

end Reference

end DataTree.Xml

import Agentry.Sha256
import Agentry.Text.Blank
/-!
# Digests as texts

A digest is a text of hexadecimal digits. Its octets are taken from the characters one after the
other, which is how a digest of a known text can be evaluated.
-/
namespace Agentry.Sha256

theorem toList_loop (bytes : ByteArray) (i : Nat) (passed : List UInt8) :
    ByteArray.toList.loop bytes i passed = passed.reverse ++ bytes.data.toList.drop i := by
  fun_induction ByteArray.toList.loop bytes i passed with
  | case1 i passed hlt ih =>
    have hi : i < bytes.data.toList.length := hlt
    have hget : bytes.get! i = bytes.data.toList[i] := getElem!_pos bytes.data i hlt
    rw [ih, List.reverse_cons, List.append_assoc, hget, List.singleton_append,
      List.getElem_cons_drop]
  | case2 i passed hge =>
    have hle : bytes.data.toList.length ≤ i := Nat.le_of_not_lt hge
    rw [List.drop_eq_nil_of_le hle, List.append_nil]

theorem octets_ofList (cs : List Char) :
    (String.ofList cs).toUTF8.toList = cs.flatMap String.utf8EncodeChar := by
  have hloop := toList_loop (String.ofList cs).toUTF8 0 []
  rw [List.reverse_nil, List.nil_append, List.drop_zero] at hloop
  exact hloop.trans List.toList_data_toByteArray

theorem hexDigest_ofList (cs : List Char) :
    hexDigest (String.ofList cs) =
      String.ofList ((hash (cs.flatMap String.utf8EncodeChar)).flatMap fun byte =>
        [Text.hexDigit (byte.toNat / 16), Text.hexDigit (byte.toNat % 16)]) := by
  rw [hexDigest, octets_ofList]

/-- A digest is a text of hexadecimal digits. -/
theorem mem_hexDigest {s : String} {c : Char} (h : c ∈ (hexDigest s).toList) :
    ∃ n, n < 16 ∧ c = Text.hexDigit n := by
  simp only [hexDigest, String.toList_ofList, List.mem_flatMap] at h
  obtain ⟨byte, _, hc⟩ := h
  have hbyte := byte.toNat_lt
  have hcases : c = Text.hexDigit (byte.toNat / 16) ∨ c = Text.hexDigit (byte.toNat % 16) := by
    simpa using hc
  rcases hcases with rfl | rfl
  · exact ⟨_, by omega, rfl⟩
  · exact ⟨_, by omega, rfl⟩

theorem not_blank_of_mem_hexDigest {s : String} {c : Char} (h : c ∈ (hexDigest s).toList) :
    Text.isBlank c = false := by
  have hall : ∀ m : Fin 16, Text.isBlank (Text.hexDigit m) = false := by decide
  obtain ⟨n, hn, rfl⟩ := mem_hexDigest h
  exact hall ⟨n, hn⟩

end Agentry.Sha256

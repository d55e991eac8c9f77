import TaskNetwork.ContentHash.Basic
import TaskNetwork.Text.Basic

/-!
# Written hashes

Hashes on one subject that are written alike come from digests that are alike, and messages that
are alike are on one subject and come from data that are alike. What lies between, from digests to
messages, is for SHA-256 to say, so it is an assumption on the messages at hand. A written hash is
read back, and it is ASCII text without blanks.
-/

namespace TaskNetwork

/-- No two of these messages have the same hash. -/
def Sha256.IsCollisionFree (messages : List (List UInt8)) : Prop :=
  ∀ a ∈ messages, ∀ b ∈ messages, hash a = hash b → a = b

instance (messages : List (List UInt8)) : Decidable (Sha256.IsCollisionFree messages) :=
  inferInstanceAs (Decidable (∀ a ∈ messages, ∀ b ∈ messages, _ → _))

theorem Sha256.IsCollisionFree.mono {messages more : List (List UInt8)}
    (h : IsCollisionFree more) (hsubset : messages ⊆ more) : IsCollisionFree messages :=
  fun a ha b hb => h a (hsubset ha) b (hsubset hb)

namespace Text

theorem hexDigit_inj : ∀ m < 16, ∀ n < 16, hexDigit m = hexDigit n → m = n := by
  decide

theorem hexOfByte_inj {a b : UInt8} (h : hexOfByte a = hexOfByte b) : a = b := by
  obtain ⟨hhigh, hlow⟩ : hexDigit (a.toNat / 16) = hexDigit (b.toNat / 16) ∧
      hexDigit (a.toNat % 16) = hexDigit (b.toNat % 16) := by
    simpa [hexOfByte] using h
  have ha := a.toNat_lt
  have hb := b.toNat_lt
  have hdiv := hexDigit_inj _ (by omega) _ (by omega) hhigh
  have hmod := hexDigit_inj _ (by omega) _ (by omega) hlow
  exact UInt8.toNat_inj.mp (by omega)

theorem hexOfBytes_inj {as bs : List UInt8} (h : hexOfBytes as = hexOfBytes bs) : as = bs := by
  have hchars : as.flatMap hexOfByte = bs.flatMap hexOfByte := String.ofList_injective h
  clear h
  induction as generalizing bs with
  | nil =>
      cases bs with
      | nil => rfl
      | cons b bs => cases hchars
  | cons a as ih =>
      cases bs with
      | nil => cases hchars
      | cons b bs =>
          rw [List.flatMap_cons, List.flatMap_cons] at hchars
          obtain ⟨hhead, htail⟩ := List.append_inj hchars rfl
          rw [hexOfByte_inj hhead, ih htail]

theorem mem_hexOfBytes {bs : List UInt8} {c : Char} (h : c ∈ (hexOfBytes bs).toList) :
    ∃ n < 16, c = hexDigit n := by
  rw [hexOfBytes, String.toList_ofList] at h
  obtain ⟨b, -, hc⟩ := List.mem_flatMap.mp h
  have hb := b.toNat_lt
  rcases List.mem_cons.mp hc with rfl | hc
  · exact ⟨b.toNat / 16, by omega, rfl⟩
  · exact ⟨b.toNat % 16, by omega, List.mem_singleton.mp hc⟩

end Text

/-- A hash whose algorithm has no colon is read back. -/
theorem ContentHash.parse?_text {h : ContentHash} (hcolon : ':' ∉ h.algorithm.toList)
    (halgorithm : h.algorithm ≠ "") (hdigits : h.digits ≠ "") : parse? h.text = some h := by
  have hchars : h.text.toList = h.algorithm.toList ++ ':' :: h.digits.toList := by
    simp [text, String.toList_append]
  have hpass : ∀ c ∈ h.algorithm.toList, decide (c ≠ ':') = true :=
    fun c hc => decide_eq_true fun heq => hcolon (heq ▸ hc)
  have htake : (h.algorithm.toList ++ ':' :: h.digits.toList).takeWhile (· ≠ ':') =
      h.algorithm.toList := by
    rw [List.takeWhile_append_of_pos hpass]
    simp
  have hdrop : (h.algorithm.toList ++ ':' :: h.digits.toList).dropWhile (· ≠ ':') =
      ':' :: h.digits.toList := by
    rw [List.dropWhile_append_of_pos hpass]
    simp
  rw [parse?, hchars, htake, hdrop]
  simp [String.ofList_toList, halgorithm, hdigits]

namespace Subject

variable {s : Subject} {a b : ByteArray}

theorem hash_message_eq (h : (s.hash a).text = (s.hash b).text) :
    Sha256.hash (s.message a) = Sha256.hash (s.message b) := by
  refine Text.hexOfBytes_inj ?_
  have htext := congrArg String.toList h
  simp only [hash, ContentHash.text, String.toList_append, List.append_cancel_left_eq] at htext
  exact String.toList_inj.mp htext

theorem parse?_text_hash (s : Subject) (data : ByteArray) :
    ContentHash.parse? (s.hash data).text = some (s.hash data) := by
  have hcolon : ':' ∉ "sha256".toList := by decide
  have hsome : "sha256" ≠ "" := by decide
  have hlength : (hash s data).digits.toList.length = 64 := by
    simp only [hash, Text.hexOfBytes, String.toList_ofList]
    rfl
  refine ContentHash.parse?_text hcolon hsome fun hempty => ?_
  rw [hempty] at hlength
  cases hlength

theorem text_hash_ascii (s : Subject) (data : ByteArray) :
    ∀ c ∈ (s.hash data).text.toList, c.toNat < 0x80 ∧ Text.isBlank c = false := by
  have hdigits : ∀ n < 16, (Text.hexDigit n).toNat < 0x80 ∧
      Text.isBlank (Text.hexDigit n) = false := by decide
  have hmark : ("sha256" ++ ":").toList.all
      (fun c => c.toNat < 0x80 && !Text.isBlank c) = true := by decide
  intro c hc
  rw [ContentHash.text, String.toList_append] at hc
  rcases List.mem_append.mp hc with hc | hc
  · simpa using List.all_eq_true.mp hmark c hc
  · obtain ⟨n, hn, rfl⟩ := Text.mem_hexOfBytes hc
    exact hdigits n hn

theorem message_inj (h : s.message a = s.message b) : a = b := by
  have hlist : a.data.toList = b.data.toList := List.append_cancel_left h
  exact ByteArray.ext (Array.toList_inj.mp hlist)

/-- No separator starts another one, as each ends with its only zero byte. -/
theorem eq_of_separator_isPrefix {s t : Subject}
    (h : s.separator.toUTF8.data.toList <+: t.separator.toUTF8.data.toList) : s = t := by
  revert h
  cases s <;> cases t <;> decide

/-- Data on different subjects make different messages. -/
theorem eq_of_message_eq {s t : Subject} (h : s.message a = t.message b) : s = t := by
  have hs : s.separator.toUTF8.data.toList <+: t.message b := h ▸ List.prefix_append _ _
  rcases List.prefix_or_prefix_of_prefix hs (List.prefix_append _ _) with hprefix | hprefix
  · exact eq_of_separator_isPrefix hprefix
  · exact (eq_of_separator_isPrefix hprefix).symm

end Subject

end TaskNetwork

import Iperf3.Base64
import Iperf3.ScanFormat
import Iperf3.TestModel

/-!
# The token of user name, password and time

`encodeAuthSetting` and `decodeAuthSetting` follow the functions of the same
names.  The key pair and the base64 filter of OpenSSL are parameters, and
memory is never short.
-/

namespace Iperf3

open ScanFormat

/-- Encryption to one key and decryption with it, and the base64 filter. -/
structure OpenSsl where
  -- `none` if the text does not fit the key.
  encrypt : List UInt8 → Option (List UInt8)
  decrypt : List UInt8 → List UInt8
  base64Encode : List UInt8 → CString
  base64Decode : CString → List UInt8

/-- Decryption undoes encryption, and base64 decoding undoes encoding. -/
structure OpenSsl.Undoes (ssl : OpenSsl) : Prop where
  decrypt : ∀ text encrypted, ssl.encrypt text = some encrypted → ssl.decrypt encrypted = text
  base64 : ∀ bytes, ssl.base64Decode (ssl.base64Encode bytes) = bytes

def formatText (text : String) : List FormatItem :=
  (CString.ofString text).map .text

/-- `"user: %s\npwd:  %s\nts:   %"PRId64`. -/
def authTextFormat : List FormatItem :=
  formatText "user: " ++ [.string] ++ formatText "\npwd:  " ++ [.string] ++
    formatText "\nts:   " ++ [.int64]

/-- The length of the format; `PRId64` is `lld` on Windows, and `ld`. -/
def authTextFormatLength (b : Build) : ℕ :=
  if b.windows then 28 else 27

/-- `snprintf` into the buffer that has been allocated. -/
def authText (b : Build) (username password : CString) (utcSeconds : Int64) : CString :=
  let textLen := authTextFormatLength b + username.length + password.length + 32
  (print authTextFormat [.string username, .string password, .int64 utcSeconds]).take
    (textLen - 1)

/-- The token, made at the time `utcSeconds`. -/
def encodeAuthSetting (ssl : OpenSsl) (b : Build) (username password : CString)
    (utcSeconds : Int64) : Option CString :=
  (ssl.encrypt (authText b username password utcSeconds).bytes).map ssl.base64Encode

def decodeAuthSetting (ssl : OpenSsl) (authtoken : CString) :
    Option (CString × CString × Int64) :=
  let plaintext := ssl.decrypt (ssl.base64Decode authtoken)
  if plaintext = [] then none
  else
    match scan authTextFormat (CString.ofBytes plaintext) with
    | [.string username, .string password, .int64 utcSeconds] =>
        some (username, password, utcSeconds)
    | _ => none

/-! ## The text -/

theorem length_printNat {n : ℕ} (hn : n < 10 ^ 19) : (printNat n).length ≤ 19 := by
  unfold printNat
  split_ifs with hzero
  · simp
  · rw [List.length_map, List.length_reverse]
    exact (Nat.digits_length_le_iff (by omega) n).mpr hn

theorem length_printInt64 (z : Int64) : (printInt64 z).length ≤ 20 := by
  have hlow := z.le_toInt
  have hhigh := z.toInt_lt
  have hnat := length_printNat (show z.toInt.natAbs < 10 ^ 19 by omega)
  unfold printInt64
  split_ifs
  · rw [List.length_cons]
    omega
  · omega

theorem print_authTextFormat (username password : CString) (utcSeconds : Int64) :
    print authTextFormat [.string username, .string password, .int64 utcSeconds] =
      CString.ofString "user: " ++ (username ++ (CString.ofString "\npwd:  " ++
        (password ++ (CString.ofString "\nts:   " ++ printInt64 utcSeconds)))) := by
  unfold authTextFormat formatText
  simp only [List.append_assoc, List.singleton_append]
  simp only [print_texts, List.cons_append, print_string, print_int64, print_nil, List.append_nil]

theorem authText_eq (b : Build) (username password : CString) (utcSeconds : Int64) :
    authText b username password utcSeconds =
      print authTextFormat [.string username, .string password, .int64 utcSeconds] := by
  have hnumber := length_printInt64 utcSeconds
  have hlength : 27 ≤ authTextFormatLength b := by
    unfold authTextFormatLength
    split_ifs <;> omega
  have hfirst : (CString.ofString "user: ").length = 6 := by decide
  have hsecond : (CString.ofString "\npwd:  ").length = 7 := by decide
  have hthird : (CString.ofString "\nts:   ").length = 7 := by decide
  refine List.take_of_length_le ?_
  rw [print_authTextFormat]
  simp only [List.length_append, hfirst, hsecond, hthird]
  omega

theorem readable_authText
    {username password : CString} (husername : IsWord username) (hpassword : IsWord password)
    (utcSeconds : Int64) :
    Readable authTextFormat [.string username, .string password, .int64 utcSeconds] := by
  have hend : Readable [.int64] [.int64 utcSeconds] :=
    .int64 utcSeconds (fun item h => by cases h) .done
  have hafter : ∀ (text : CString) (items : List FormatItem), (∃ c ∈ text.head?,
      FloatScan.isBlank c = true) → ∀ item ∈ (text.map FormatItem.text ++ items).head?,
      ∃ c, item = .text c ∧ FloatScan.isBlank c = true := by
    rintro text items ⟨c, hc, hblank⟩ item hitem
    cases text with
    | nil => cases hc
    | cons d text =>
        obtain rfl := Option.mem_some_iff.mp hc
        obtain rfl := Option.mem_some_iff.mp hitem
        exact ⟨d, rfl, hblank⟩
  have hpwd := Readable.string hpassword (hafter _ _ (by decide))
    (hend.texts (CString.ofString "\nts:   "))
  have huser := Readable.string husername (hafter _ _ (by decide))
    (hpwd.texts (CString.ofString "\npwd:  "))
  unfold authTextFormat formatText
  simp only [List.append_assoc, List.singleton_append]
  exact huser.texts (CString.ofString "user: ")

/-- The token gives back what it was made from exactly when the name and the
password are one word each. -/
theorem auth_token_round_trip_iff
    {ssl : OpenSsl} (hssl : ssl.Undoes) {b : Build} {username password : CString}
    {utcSeconds : Int64} {authtoken : CString}
    (htoken : encodeAuthSetting ssl b username password utcSeconds = some authtoken) :
    decodeAuthSetting ssl authtoken = some (username, password, utcSeconds) ↔
      IsWord username ∧ IsWord password := by
  obtain ⟨encrypted, hencrypted, rfl⟩ := Option.map_eq_some_iff.mp htoken
  have hplaintext : ssl.decrypt (ssl.base64Decode (ssl.base64Encode encrypted)) =
      (authText b username password utcSeconds).bytes := by
    rw [hssl.base64, hssl.decrypt _ _ hencrypted]
  have hsome : (authText b username password utcSeconds).bytes ≠ [] := by
    have hfirst : CString.ofString "user: " ≠ [] := by decide
    intro hnil
    rw [authText_eq, print_authTextFormat, CString.bytes, List.map_eq_nil_iff] at hnil
    exact hfirst (List.append_eq_nil_iff.mp hnil).1
  simp only [decodeAuthSetting]
  rw [hplaintext, if_neg hsome, CString.ofBytes_bytes, authText_eq]
  constructor
  · intro hdecoded
    split at hdecoded
    · rename_i u p t hscan
      obtain ⟨rfl, rfl, rfl⟩ : u = username ∧ p = password ∧ t = utcSeconds := by
        simpa using hdecoded
      have hmem : ∀ s, .string s ∈ [FormatArg.string u, .string p, .int64 t] → IsWord s :=
        fun s hs => isWord_of_mem_scan (hscan ▸ hs)
      exact ⟨hmem u (by simp), hmem p (by simp)⟩
    · cases hdecoded
  · rintro ⟨husername, hpassword⟩
    rw [scan_print (readable_authText husername hpassword utcSeconds)]

/-- A key that takes 245 bytes and turns a text around, and base64. -/
def exampleSsl : OpenSsl where
  encrypt text := if text.length ≤ 245 then some text.reverse else none
  decrypt := List.reverse
  base64Encode := Base64.encode
  base64Decode := Base64.decode

theorem exampleSsl_undoes : exampleSsl.Undoes where
  decrypt text encrypted h := by
    simp only [exampleSsl] at h
    split_ifs at h
    obtain rfl := Option.some.inj h
    exact List.reverse_reverse text
  base64 := Base64.decode_encode

theorem auth_token_kilroy :
    ∃ authtoken, encodeAuthSetting exampleSsl .linux (.ofString "kilroy") (.ofString "fubar")
        1700000000 = some authtoken ∧
      decodeAuthSetting exampleSsl authtoken =
        some (.ofString "kilroy", .ofString "fubar", 1700000000) := by
  have hsome : (encodeAuthSetting exampleSsl .linux (.ofString "kilroy") (.ofString "fubar")
      1700000000).isSome = true := by decide
  obtain ⟨authtoken, htoken⟩ := Option.isSome_iff_exists.mp hsome
  exact ⟨authtoken, htoken, (auth_token_round_trip_iff exampleSsl_undoes htoken).mpr (by decide)⟩

/-- A password of two words is not read back, and one that goes on with a
line of its own replaces the time. -/
theorem auth_token_two_words :
    exampleSsl.Undoes ∧
      (encodeAuthSetting exampleSsl .linux (.ofString "mario") (.ofString "very incorrect")
        1700000000).map (decodeAuthSetting exampleSsl) = some none ∧
      (encodeAuthSetting exampleSsl .linux (.ofString "mario") (.ofString "luigi\nts: 7")
        1700000000).map (decodeAuthSetting exampleSsl) =
          some (some (.ofString "mario", .ofString "luigi", 7)) := by
  refine ⟨exampleSsl_undoes, ?_, ?_⟩
  · decide
  · decide

end Iperf3

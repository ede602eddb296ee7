import Iperf3.JsonRoundTrip
import Iperf3.JsonTransfer
import Iperf3.ParameterRoundTrip
import Iperf3.Results
import Mathlib.Tactic

/-!
# Control messages as text

The printer and the parser of the library, as the frames on the control
connection use them.  Names of members are compared without regard to case.
A tree of the program has finite numbers only, so a text with a number beyond
the range of doubles has no tree here.
-/

namespace Iperf3

open FloatScan

/-! ## Names -/

namespace Key

def name : Key → String
  | tcp => "tcp"
  | udp => "udp"
  | sctp => "sctp"
  | omitTime => "omit"
  | serverAffinity => "server_affinity"
  | time => "time"
  | num => "num"
  | blockcount => "blockcount"
  | mss => "MSS"
  | nodelay => "nodelay"
  | parallel => "parallel"
  | reverse => "reverse"
  | bidirectional => "bidirectional"
  | mptcp => "mptcp"
  | window => "window"
  | len => "len"
  | bandwidth => "bandwidth"
  | fqrate => "fqrate"
  | pacingTimer => "pacing_timer"
  | burst => "burst"
  | gso => "gso"
  | gsoDgSize => "gso_dg_size"
  | gsoBfSize => "gso_bf_size"
  | gro => "gro"
  | groBfSize => "gro_bf_size"
  | tos => "TOS"
  | flowlabel => "flowlabel"
  | title => "title"
  | extraData => "extra_data"
  | congestion => "congestion"
  | congestionUsed => "congestion_used"
  | getServerOutput => "get_server_output"
  | udpCounters64bit => "udp_counters_64bit"
  | repeatingPayload => "repeating_payload"
  | zerocopy => "zerocopy"
  | dontFragment => "dont_fragment"
  | authtoken => "authtoken"
  | skipRxCopy => "skip_rx_copy"
  | clientVersion => "client_version"
  | cpuUtilTotal => "cpu_util_total"
  | cpuUtilUser => "cpu_util_user"
  | cpuUtilSystem => "cpu_util_system"
  | senderHasRetransmits => "sender_has_retransmits"
  | serverOutputJson => "server_output_json"
  | serverOutputText => "server_output_text"
  | streams => "streams"
  | id => "id"
  | bytes => "bytes"
  | retransmits => "retransmits"
  | jitter => "jitter"
  | errors => "errors"
  | omittedErrors => "omitted_errors"
  | packets => "packets"
  | omittedPackets => "omitted_packets"
  | startTime => "start_time"
  | endTime => "end_time"
  | other name => name

def known : List Key :=
  [tcp, udp, sctp, omitTime, serverAffinity, time, num, blockcount, mss, nodelay, parallel,
    reverse, bidirectional, mptcp, window, len, bandwidth, fqrate, pacingTimer, burst, gso,
    gsoDgSize, gsoBfSize, gro, groBfSize, tos, flowlabel, title, extraData, congestion,
    congestionUsed, getServerOutput, udpCounters64bit, repeatingPayload, zerocopy, dontFragment,
    authtoken, skipRxCopy, clientVersion, cpuUtilTotal, cpuUtilUser, cpuUtilSystem,
    senderHasRetransmits, serverOutputJson, serverOutputText, streams, id, bytes, retransmits,
    jitter, errors, omittedErrors, packets, omittedPackets, startTime, endTime]

def cname (key : Key) : CString :=
  CString.ofString key.name

/-- Equality up to case, as `case_insensitive_strcmp` tests it. -/
def sameName (s t : CString) : Bool :=
  s.map CChar.lower = t.map CChar.lower

/-- The member that a name stands for. -/
def ofName (s : CString) : Key :=
  (known.find? fun key => sameName s key.cname).getD
    (.other (String.ofList (s.map CChar.lower)))

/-- The name of the member is read as the member. -/
def Named (key : Key) : Prop :=
  ofName key.cname = key

theorem named_of_mem : ∀ key ∈ known, Named key := by
  unfold Named
  decide +kernel

end Key

/-! ## Strings and numbers -/

/-- Every character is one byte, and none is the zero. -/
def IsCText (s : String) : Prop :=
  ∀ c ∈ s.toList, c.toNat ≠ 0 ∧ c.toNat < 256

instance (s : String) : Decidable (IsCText s) :=
  List.decidableBAll (fun c : Char => c.toNat ≠ 0 ∧ c.toNat < 256) s.toList

def CString.toText (s : CString) : String :=
  String.ofList (s.map CChar.char)

theorem CString.toText_ofString {s : String} (h : IsCText s) : (CString.ofString s).toText = s := by
  have hchars : ∀ cs : List Char, (∀ c ∈ cs, c.toNat ≠ 0 ∧ c.toNat < 256) →
      (cs.filterMap fun c =>
        if h : UInt8.ofNat c.toNat ≠ 0 then some (CChar.ofChar c h) else none).map CChar.char =
        cs := by
    intro cs
    induction cs with
    | nil => exact fun _ => rfl
    | cons c cs ih =>
        intro h
        obtain ⟨hzero, hsmall⟩ := h c List.mem_cons_self
        have htoNat : (UInt8.ofNat c.toNat).toNat = c.toNat := by
          rw [UInt8.toNat_ofNat']
          exact Nat.mod_eq_of_lt hsmall
        have hne : UInt8.ofNat c.toNat ≠ 0 := by
          intro h
          rw [h] at htoNat
          exact hzero htoNat.symm
        rw [List.filterMap_cons, dif_pos hne]
        dsimp only
        rw [List.map_cons, ih fun d hd => h d (List.mem_cons_of_mem _ hd)]
        congr 1
        change Char.ofNat (UInt8.ofNat c.toNat).toNat = c
        rw [htoNat, Char.ofNat_toNat]
  unfold CString.toText CString.ofString
  rw [hchars s.toList h, String.ofList_toList]

/-- A number that is still finite when its text is read. -/
def IsPrintable (q : ℚ) : Prop :=
  |Binary64.roundFinite q| ≤ JsonNumber.largestShort

/-- What a number is read back as. -/
def rereadNumber (q : ℚ) : ℚ :=
  match (JsonNumber.reread (toDouble q)).map Double.value with
  | some (.finite y) => y
  | _ => q

theorem largestShort_lt_two_pow : JsonNumber.largestShort < 2 ^ 1024 := by
  have hsplit : (2 : ℚ) ^ 1024 = ((2 ^ 53 : ℕ) : ℚ) * 2 ^ (971 : ℕ) := by
    rw [Nat.cast_pow, Nat.cast_ofNat, ← pow_add]
  rw [hsplit]
  exact JsonNumber.largestShort_lt.trans
    (mul_lt_mul_of_pos_right (by norm_num) (by positivity))

theorem reread_printable {q : ℚ} (hq : IsPrintable q) :
    ∃ x, JsonNumber.reread (toDouble q) = some x ∧ x.value = .finite (rereadNumber q) := by
  have hd := toDouble_of_lt (lt_of_le_of_lt hq largestShort_lt_two_pow)
  obtain ⟨x, hstrtod, hx⟩ := JsonNumber.strtod_numberText hd
  have hreread : JsonNumber.reread (toDouble q) = some x := by
    unfold JsonNumber.reread
    rw [hstrtod]
    rfl
  obtain ⟨y, hy, -⟩ := hx.close hq
  refine ⟨x, hreread, ?_⟩
  unfold rereadNumber
  rw [hreread, Option.map_some, hy]

/-- Whole numbers of at most 53 bits come back. -/
theorem rereadNumber_intCast {n : ℤ} (hn : |n| ≤ 2 ^ 53) : rereadNumber n = n := by
  have hdouble := isDouble_intCast hn
  have hd := toDouble_of_isDouble hdouble
  obtain ⟨x, hstrtod, hx⟩ := JsonNumber.strtod_numberText hd
  have hwhole : (n : ℚ) = Binary64.roundFinite (CJson.saturate n) := by
    rw [CJson.saturate_intCast hn, Binary64.roundFinite_of_onGrid hdouble.1]
  unfold rereadNumber JsonNumber.reread
  rw [hstrtod, Option.map_some, Option.map_some, hx.whole hwhole]

theorem rereadNumber_keepsIntegers : CJson.KeepsIntegers rereadNumber :=
  fun _ hn => rereadNumber_intCast hn

theorem two_pow_64_le_largestShort : (2 : ℚ) ^ 64 ≤ JsonNumber.largestShort := by
  have hpow : (1 : ℚ) ≤ 10 ^ (264 : ℕ) := one_le_pow₀ (by norm_num)
  have hsplit : JsonNumber.largestShort = 179769313486231 * 10 ^ 30 * 10 ^ (264 : ℕ) := by
    unfold JsonNumber.largestShort
    rw [mul_assoc, ← pow_add]
    norm_num
  rw [hsplit]
  calc
    (2 : ℚ) ^ 64 ≤ 179769313486231 * 10 ^ 30 * 1 := by norm_num
    _ ≤ 179769313486231 * 10 ^ 30 * 10 ^ (264 : ℕ) := mul_le_mul_of_nonneg_left hpow (by norm_num)

theorem roundDouble_intCast_eq (n : ℤ) : Binary64.roundDouble n = Binary64.roundFinite n := by
  have hplace : Binary64.lastPlace n = Binary64.unitExponent n := by
    unfold Binary64.lastPlace
    apply max_eq_left
    unfold Binary64.unitExponent
    rcases eq_or_ne n 0 with rfl | hn
    · rw [Int.cast_zero, abs_zero, Int.log_zero_right]
      norm_num
    · have hone : (1 : ℚ) ≤ |(n : ℚ)| := by exact_mod_cast Int.one_le_abs hn
      have hlog : 0 ≤ Int.log 2 |(n : ℚ)| := by
        rw [← Int.zpow_le_iff_le_log one_lt_two (one_pos.trans_le hone), zpow_zero]
        exact hone
      omega
  unfold Binary64.roundDouble Binary64.roundFinite
  rw [hplace]

theorem isPrintable_of_le {q : ℚ} (hq : |q| ≤ 2 ^ 64) : IsPrintable q := by
  have hgrid : Binary64.OnGrid ((2 : ℚ) ^ 64) := by
    have h := Binary64.onGrid_two_zpow (k := 64) (by norm_num)
    exact_mod_cast h
  exact (Binary64.abs_roundFinite_le hgrid hq).trans two_pow_64_le_largestShort

theorem isPrintable_ofInt {n : ℤ} (hn : |n| ≤ 2 ^ 64) : IsPrintable (Binary64.roundDouble n) := by
  have hcast : |(n : ℚ)| ≤ 2 ^ 64 := by exact_mod_cast hn
  have h := isPrintable_of_le hcast
  unfold IsPrintable at h ⊢
  rwa [roundDouble_intCast_eq, Binary64.roundFinite_of_onGrid (Binary64.roundFinite_onGrid _)]

/-! ## Trees -/

namespace JsonTree

mutual

def toItem : Json → JsonItem
  | .null => .null
  | .bool value => .bool value
  | .number q => .number (toDouble q)
  | .string s => .string (CString.ofString s)
  | .array items => .array (toItems items)
  | .object members => .object (toMembers members)

def toItems : List Json → List JsonItem
  | [] => []
  | j :: items => toItem j :: toItems items

def toMembers : List (Key × Json) → List (CString × JsonItem)
  | [] => []
  | (key, j) :: members => (key.cname, toItem j) :: toMembers members

end

mutual

def ofItem : JsonItem → Option Json
  | .null => some .null
  | .bool value => some (.bool value)
  | .number d =>
      match d.value with
      | .finite q => some (.number q)
      | _ => none
  | .string s => some (.string s.toText)
  | .array child => (ofItems child).map .array
  | .object child => (ofMembers child).map .object

def ofItems : List JsonItem → Option (List Json)
  | [] => some []
  | item :: items => do return (← ofItem item) :: (← ofItems items)

def ofMembers : List (CString × JsonItem) → Option (List (Key × Json))
  | [] => some []
  | (name, item) :: members => do
      return (Key.ofName name, ← ofItem item) :: (← ofMembers members)

end

def ofOutcome : Option (Except ℕ JsonItem) → Option Json
  | some (.ok item) => ofItem item
  | _ => none

mutual

/-- A tree that a text can carry: strings of bytes, names that are read as the
members they belong to, and numbers that stay finite. -/
def Sendable : Json → Prop
  | .null => True
  | .bool _ => True
  | .number q => IsPrintable q
  | .string s => IsCText s
  | .array items => SendableItems items
  | .object members => SendableMembers members

def SendableItems : List Json → Prop
  | [] => True
  | j :: items => Sendable j ∧ SendableItems items

def SendableMembers : List (Key × Json) → Prop
  | [] => True
  | (key, j) :: members => (key.Named ∧ Sendable j) ∧ SendableMembers members

end

theorem sendableMembers_iff {members : List (Key × Json)} :
    SendableMembers members ↔ ∀ member ∈ members, member.1.Named ∧ Sendable member.2 := by
  induction members with
  | nil => simp [SendableMembers]
  | cons member members ih =>
      obtain ⟨key, j⟩ := member
      rw [SendableMembers, ih, List.forall_mem_cons]

mutual

/-- What is read back is the tree with its numbers reread. -/
theorem ofItem_reread : ∀ {j : Json}, Sendable j →
    ofItem (toItem j).reread = some (j.mapNumbers rereadNumber)
  | .null, _ => by
      rw [toItem, JsonItem.reread, ofItem, CJson.mapNumbers]
  | .bool value, _ => by
      rw [toItem, JsonItem.reread, ofItem, CJson.mapNumbers]
  | .number q, h => by
      rw [Sendable] at h
      obtain ⟨x, hreread, hx⟩ := reread_printable h
      rw [toItem, JsonItem.reread, hreread]
      dsimp only
      rw [ofItem, hx, CJson.mapNumbers]
  | .string s, h => by
      rw [Sendable] at h
      rw [toItem, JsonItem.reread, ofItem, CString.toText_ofString h, CJson.mapNumbers]
  | .array items, h => by
      rw [Sendable] at h
      rw [toItem, JsonItem.reread, ofItem, ofItems_reread h, CJson.mapNumbers]
      rfl
  | .object members, h => by
      rw [Sendable] at h
      rw [toItem, JsonItem.reread, ofItem, ofMembers_reread h, CJson.mapNumbers]
      rfl

theorem ofItems_reread : ∀ {items : List Json}, SendableItems items →
    ofItems (JsonItem.rereadItems (toItems items)) =
      some (CJson.mapItems rereadNumber items)
  | [], _ => by
      rw [toItems, JsonItem.rereadItems, ofItems, CJson.mapItems]
  | j :: items, h => by
      rw [SendableItems] at h
      rw [toItems, JsonItem.rereadItems, ofItems, ofItem_reread h.1, ofItems_reread h.2,
        CJson.mapItems]
      rfl

theorem ofMembers_reread : ∀ {members : List (Key × Json)}, SendableMembers members →
    ofMembers (JsonItem.rereadMembers (toMembers members)) =
      some (CJson.mapMembers rereadNumber members)
  | [], _ => by
      rw [toMembers, JsonItem.rereadMembers, ofMembers, CJson.mapMembers]
  | (key, j) :: members, h => by
      rw [SendableMembers] at h
      have hname : Key.ofName key.cname = key := h.1.1
      rw [toMembers, JsonItem.rereadMembers, ofMembers, ofItem_reread h.1.2, ofMembers_reread h.2,
        hname, CJson.mapMembers]
      rfl

end

/-- How deeply a tree nests. -/
def nesting (j : Json) : ℕ :=
  (toItem j).nesting

/-- A tree that a text can carry, and that the parser follows to its leaves if
there are that many levels. -/
structure Carriable (levels : ℕ) (j : Json) : Prop where
  sendable : Sendable j
  nesting_le : nesting j ≤ levels

/-- Members that a text can carry. -/
def CarriableAll (levels : ℕ) (members : List (Key × Json)) : Prop :=
  ∀ member ∈ members, member.1.Named ∧ Carriable levels member.2

variable {levels : ℕ} {key : Key} {j : Json}

theorem Carriable.bool (levels : ℕ) (value : Bool) : Carriable levels (.bool value) where
  sendable := by
    rw [Sendable]
    trivial
  nesting_le := by
    rw [nesting, toItem, JsonItem.nesting]
    exact Nat.zero_le _

theorem Carriable.number (levels : ℕ) {q : ℚ} (hq : IsPrintable q) :
    Carriable levels (.number q) where
  sendable := by
    rw [Sendable]
    exact hq
  nesting_le := by
    rw [nesting, toItem, JsonItem.nesting]
    exact Nat.zero_le _

theorem Carriable.string (levels : ℕ) {s : String} (hs : IsCText s) :
    Carriable levels (.string s) where
  sendable := by
    rw [Sendable]
    exact hs
  nesting_le := by
    rw [nesting, toItem, JsonItem.nesting]
    exact Nat.zero_le _

theorem Carriable.mono {levels' : ℕ} (h : Carriable levels j) (hle : levels ≤ levels') :
    Carriable levels' j :=
  ⟨h.sendable, h.nesting_le.trans hle⟩

theorem Carriable.object (levels : ℕ) {members : List (Key × Json)}
    (h : CarriableAll levels members) :
    Carriable (levels + 1) (.object members) where
  sendable := by
    rw [Sendable]
    exact sendableMembers_iff.mpr fun member hmember =>
      ⟨(h member hmember).1, (h member hmember).2.sendable⟩
  nesting_le := by
    have hmembers : JsonItem.membersNesting (toMembers members) ≤ levels := by
      induction members with
      | nil =>
          rw [toMembers, JsonItem.membersNesting]
          exact Nat.zero_le _
      | cons member members ih =>
          obtain ⟨key, j⟩ := member
          rw [toMembers, JsonItem.membersNesting]
          exact max_le (h (key, j) List.mem_cons_self).2.nesting_le
            (ih fun member hmember => h member (List.mem_cons_of_mem _ hmember))
    rw [nesting, toItem, JsonItem.nesting]
    exact Nat.succ_le_succ hmembers

theorem Carriable.array (levels : ℕ) {items : List Json} (h : ∀ j ∈ items, Carriable levels j) :
    Carriable (levels + 1) (.array items) where
  sendable := by
    rw [Sendable]
    induction items with
    | nil =>
        rw [SendableItems]
        trivial
    | cons j items ih =>
        rw [SendableItems]
        exact ⟨(h j List.mem_cons_self).sendable,
          ih fun j hj => h j (List.mem_cons_of_mem _ hj)⟩
  nesting_le := by
    have hitems : JsonItem.itemsNesting (toItems items) ≤ levels := by
      induction items with
      | nil =>
          rw [toItems, JsonItem.itemsNesting]
          exact Nat.zero_le _
      | cons j items ih =>
          rw [toItems, JsonItem.itemsNesting]
          exact max_le (h j List.mem_cons_self).nesting_le
            (ih fun j hj => h j (List.mem_cons_of_mem _ hj))
    rw [nesting, toItem, JsonItem.nesting]
    exact Nat.succ_le_succ hitems

theorem Carriable.ofInt (levels : ℕ) {n : ℤ} (hn : |n| ≤ 2 ^ 64) :
    Carriable levels (.ofInt n) :=
  Carriable.number levels (isPrintable_ofInt hn)

theorem CarriableAll.append {members members' : List (Key × Json)}
    (h : CarriableAll levels members) (h' : CarriableAll levels members') :
    CarriableAll levels (members ++ members') :=
  List.forall_mem_append.mpr ⟨h, h'⟩

theorem CarriableAll.cons {members : List (Key × Json)} (hkey : key ∈ Key.known)
    (hj : Carriable levels j) (h : CarriableAll levels members) :
    CarriableAll levels ((key, j) :: members) :=
  List.forall_mem_cons.mpr ⟨⟨Key.named_of_mem key hkey, hj⟩, h⟩

theorem CarriableAll.nil (levels : ℕ) : CarriableAll levels [] :=
  List.forall_mem_nil _

theorem CarriableAll.single (hkey : key ∈ Key.known) (hj : Carriable levels j) :
    CarriableAll levels [(key, j)] :=
  CarriableAll.cons hkey hj (CarriableAll.nil levels)

theorem CarriableAll.addWhen {present : Bool} (hkey : key ∈ Key.known)
    (hj : Carriable levels j) : CarriableAll levels (addWhen present key j) := by
  unfold Iperf3.addWhen
  split_ifs
  · exact CarriableAll.single hkey hj
  · exact CarriableAll.nil levels

end JsonTree

open JsonTree

/-- A text that a program holds in a C string, if it holds one. -/
def IsText (text : Option String) : Prop :=
  ∀ s, text = some s → IsCText s

theorem isText_none : IsText none := by
  rintro s ⟨⟩

theorem JsonTree.CarriableAll.addString {levels : ℕ} {key : Key} {text : Option String}
    (hkey : key ∈ Key.known) (htext : IsText text) :
    CarriableAll levels (addString key text) := by
  cases text with
  | none => exact CarriableAll.nil levels
  | some s => exact CarriableAll.single hkey (Carriable.string levels (htext s rfl))

/-! ## The codec -/

/-- The library as the frames use it: a text without white space is written,
and what is received is a C string up to its first zero. -/
def cjsonCodec : Codec where
  print j := JsonText.valueText false 0 (JsonTree.toItem j)
  parse bytes := JsonTree.ofOutcome (JsonParser.parse (CString.ofBytes bytes))

theorem cjsonCodec_faithful {j : Json} (h : Carriable JsonItem.nestingLimit j) :
    cjsonCodec.Faithful j := by
  refine ⟨rereadNumber, rereadNumber_keepsIntegers, ?_⟩
  have hread := readText_valueText_eq false (toItem j)
  unfold rereadWithin at hread
  rw [if_pos (show (toItem j).nesting ≤ JsonItem.nestingLimit from h.nesting_le)] at hread
  have hparse := parse_eq (JsonText.text false (toItem j))
  rw [JsonText.text_bytes, hread] at hparse
  change ofOutcome (JsonParser.parse (JsonText.text false (toItem j))) = _
  rcases hparse with ⟨item, hitem, hparse⟩ | ⟨hnone, -⟩
  · cases hitem
    rw [hparse]
    exact ofItem_reread h.sendable
  · cases hnone

theorem valueText_ne_nil (format : Bool) (depth : ℕ) (item : JsonItem) :
    JsonText.valueText format depth item ≠ [] := by
  obtain ⟨c, s, heq, -⟩ := valueText_begins format depth item
  rw [heq]
  exact List.cons_ne_nil c s

/-- A frame carries a tree exactly when the length of its text fits into four
bytes and is not above the limit of the reader. -/
theorem cjsonCodec_carries_iff {j : Json} (maxSize : ℕ) (h : Carriable JsonItem.nestingLimit j) :
    cjsonCodec.Carries maxSize j ↔ (cjsonCodec.print j).length < 4294967296 ∧
      (maxSize = 0 ∨ (cjsonCodec.print j).length ≤ maxSize) := by
  constructor
  · exact fun h => h.2.2
  · intro hfits
    exact ⟨cjsonCodec_faithful h, List.length_pos_of_ne_nil (valueText_ne_nil false 0 _), hfits⟩

theorem cjsonCodec_transfers_iff
    {j : Json} (h : Carriable JsonItem.nestingLimit j) {writes : FrameWrites}
    {calls : FrameReads} (hio : Unhindered (cjsonCodec.print j) writes calls) :
    Transfers cjsonCodec writes calls j ↔
      (cjsonCodec.print j).length < 2147483648 ∧
        (calls.maxSize = 0 ∨ (cjsonCodec.print j).length ≤ calls.maxSize) :=
  transfers_iff (cjsonCodec_faithful h) (List.length_pos_of_ne_nil (valueText_ne_nil false 0 _)) hio

/-- A frame that is written at once and read in two parts. -/
def shortWrites : FrameWrites := ⟨[.transferred 4], [.transferred 8192]⟩

def shortReads (maxSize : ℕ) : FrameReads where
  maxSize := maxSize
  allocated := true
  length := ⟨.ready, [(.transferred 3, .ready), (.transferred 1, .ready)]⟩
  text := ⟨.ready, [(.transferred 100, .ready), (.transferred 8192, .ready)]⟩

theorem acceptedBytes_once {count n : ℕ} (hpos : n ≠ 0) (h : count ≤ n) :
    acceptedBytes count [.transferred n] = count := by
  cases count with
  | zero => simp only [acceptedBytes]
  | succ count =>
      simp only [acceptedBytes]
      rw [if_neg hpos, Nat.sub_eq_zero_of_le h]
      simp only [acceptedBytes]
      omega

theorem readsAll_cons {count n : ℕ} (hpos : n ≠ 0) {reads : List (CallResult × Wait)}
    (h : ReadsAll (count - n) reads) :
    ReadsAll count ((.transferred n, .ready) :: reads) := by
  cases count with
  | zero => simp only [ReadsAll]
  | succ count =>
      simp only [ReadsAll]
      exact ⟨hpos, Or.inr ⟨trivial, h⟩⟩

theorem unhindered_short (maxSize : ℕ) {text : List UInt8} (h : text.length ≤ 8192) :
    Unhindered text shortWrites (shortReads maxSize) := by
  have hlength : uint32Length text = text.length := by
    rw [uint32Length_eq]
    omega
  refine ⟨⟨by omega, by decide, ?_⟩, rfl, rfl, by simp [shortReads, ReadsAll], rfl, ?_⟩
  · rw [hlength]
    exact acceptedBytes_once (by norm_num) h
  · apply readsAll_cons (by norm_num)
    apply readsAll_cons (by norm_num)
    rw [Nat.sub_sub, Nat.sub_eq_zero_of_le (by omega)]
    simp only [ReadsAll]

/-! ## The parameter message -/

/-- The members of a test that the parameter message is made of hold values of
their types. -/
structure MessageTypes (t : Test) : Prop where
  omitTime : IsInt t.omitTime
  serverAffinity : IsInt t.serverAffinity
  duration : IsInt t.duration
  numStreams : IsInt t.numStreams
  getServerOutput : IsInt t.getServerOutput
  udpCounters64bit : IsInt t.udpCounters64bit
  repeatingPayload : IsInt t.repeatingPayload
  zerocopy : IsInt t.zerocopy
  mss : IsInt t.settings.mss
  socketBufsize : IsInt t.settings.socketBufsize
  blksize : IsInt t.settings.blksize
  pacingTimer : IsInt t.settings.pacingTimer
  burst : IsInt t.settings.burst
  gso : IsInt t.settings.gso
  gsoDgSize : IsInt t.settings.gsoDgSize
  gsoBfSize : IsInt t.settings.gsoBfSize
  gro : IsInt t.settings.gro
  groBfSize : IsInt t.settings.groBfSize
  tos : IsInt t.settings.tos
  flowlabel : IsInt t.settings.flowlabel
  dontFragment : IsInt t.settings.dontFragment
  skipRxCopy : IsInt t.settings.skipRxCopy
  bytes : t.settings.bytes < 2 ^ 64
  blocks : t.settings.blocks < 2 ^ 64
  rate : t.settings.rate < 2 ^ 64
  fqrate : t.settings.fqrate < 2 ^ 64
  title : IsText t.title
  extraData : IsText t.extraData
  congestion : IsText t.congestion
  congestionUsed : IsText t.congestionUsed

theorem carriable_int {n : ℤ} (levels : ℕ) (hn : IsInt n) : Carriable levels (.ofInt n) := by
  obtain ⟨hlow, hhigh⟩ := MachineInt.int32_bounds n
  apply Carriable.ofInt
  unfold IsInt at hn
  rw [abs_le]
  omega

theorem carriable_size {n : ℕ} (levels : ℕ) (hn : n < 2 ^ 64) : Carriable levels (.ofInt n) := by
  apply Carriable.ofInt
  rw [Nat.abs_cast]
  exact_mod_cast hn.le

theorem carriable_parameterMembers (b : Build) {t : Test} {token : Option String}
    (h : MessageTypes t) (htoken : IsText token) :
    CarriableAll 0 (parameterMembers b token t) := by
  have hversion : Carriable 0 (.string iperfVersion) := Carriable.string 0 (by decide)
  have hprotocol : protocolKey t.protocol ∈ Key.known := by
    cases t.protocol <;> decide
  unfold parameterMembers
  repeat' apply CarriableAll.append
  · exact .single hprotocol (.bool 0 true)
  · exact .single (by decide) (carriable_int 0 h.omitTime)
  · exact .addWhen (by decide) (carriable_int 0 h.serverAffinity)
  · exact .single (by decide) (carriable_int 0 h.duration)
  · exact .single (by decide) (carriable_size 0 h.bytes)
  · exact .single (by decide) (carriable_size 0 h.blocks)
  · exact .addWhen (by decide) (carriable_int 0 h.mss)
  · exact .addWhen (by decide) (.bool 0 true)
  · exact .single (by decide) (carriable_int 0 h.numStreams)
  · exact .addWhen (by decide) (.bool 0 true)
  · exact .addWhen (by decide) (.bool 0 true)
  · exact .addWhen (by decide) (.bool 0 true)
  · exact .addWhen (by decide) (carriable_int 0 h.socketBufsize)
  · exact .addWhen (by decide) (carriable_int 0 h.blksize)
  · exact .addWhen (by decide) (carriable_size 0 h.rate)
  · exact .addWhen (by decide) (carriable_size 0 h.fqrate)
  · exact .addWhen (by decide) (carriable_int 0 h.pacingTimer)
  · exact .addWhen (by decide) (carriable_int 0 h.burst)
  · exact .addWhen (by decide) (carriable_int 0 h.gso)
  · exact .addWhen (by decide) (carriable_int 0 h.gsoDgSize)
  · exact .addWhen (by decide) (carriable_int 0 h.gsoBfSize)
  · exact .addWhen (by decide) (carriable_int 0 h.gro)
  · exact .addWhen (by decide) (carriable_int 0 h.groBfSize)
  · exact .addWhen (by decide) (carriable_int 0 h.tos)
  · exact .addWhen (by decide) (carriable_int 0 h.flowlabel)
  · exact .addString (by decide) h.title
  · exact .addString (by decide) h.extraData
  · exact .addString (by decide) h.congestion
  · exact .addString (by decide) h.congestionUsed
  · exact .addWhen (by decide) (carriable_int 0 h.getServerOutput)
  · exact .addWhen (by decide) (carriable_int 0 h.udpCounters64bit)
  · exact .addWhen (by decide) (carriable_int 0 h.repeatingPayload)
  · exact .addWhen (by decide) (carriable_int 0 h.zerocopy)
  · exact .addWhen (by decide) (carriable_int 0 h.dontFragment)
  · split_ifs
    · exact .addString (by decide) htoken
    · exact .nil 0
  · exact .addWhen (by decide) (carriable_int 0 h.skipRxCopy)
  · exact .single (by decide) hversion

theorem carriable_sendParameters {b : Build} {auth : ClientAuth} {t : Test} {j : Json}
    (h : MessageTypes t) (hauth : ∀ text, auth = .token text → IsCText text)
    (hsend : sendParameters b auth t = some j) : Carriable 1 j := by
  unfold sendParameters at hsend
  split at hsend
  · cases hsend
    exact .object 0 (carriable_parameterMembers b h isText_none)
  · rename_i text
    cases hsend
    refine .object 0 (carriable_parameterMembers b h ?_)
    intro s heq
    cases heq
    exact hauth text rfl
  · split_ifs at hsend
    cases hsend
    exact .object 0 (carriable_parameterMembers b h isText_none)

/-- A parameter message that nothing hinders goes over to the server exactly
when its text is not longer than the server's limit. -/
theorem parameter_frame_iff {b : Build} {auth : ClientAuth} {t : Test} {j : Json}
    (h : MessageTypes t) (hauth : ∀ text, auth = .token text → IsCText text)
    (hsend : sendParameters b auth t = some j) {writes : FrameWrites} {calls : FrameReads}
    (hlimit : calls.maxSize = maxParamsJsonString)
    (hio : Unhindered (cjsonCodec.print j) writes calls) :
    Transfers cjsonCodec writes calls j ↔
      (cjsonCodec.print j).length ≤ maxParamsJsonString := by
  have hbound : maxParamsJsonString < 2147483648 ∧ maxParamsJsonString ≠ 0 := by decide
  rw [cjsonCodec_transfers_iff ((carriable_sendParameters h hauth hsend).mono (by decide)) hio,
    hlimit]
  omega

theorem noCredentials_token : ∀ text, ClientAuth.noCredentials = .token text → IsCText text := by
  rintro text ⟨⟩

/-- A client that asks for three reverse UDP streams and for the output of the
server. -/
def askingClient : Test :=
  let t := iperfStart Build.linux
  { t with
    protocol := .udp
    numStreams := 3
    reverse := 1
    getServerOutput := 1
    title := some "run \"7\""
    settings := { t.settings with blksize := 1460, rate := 1048576 } }

theorem messageTypes_asking : MessageTypes askingClient := by
  constructor
  all_goals first
    | rfl
    | decide
    | exact isText_none
    | (rintro s ⟨⟩; decide)

theorem parameter_frame_iff_asking :
    Transfers cjsonCodec shortWrites (shortReads maxParamsJsonString)
      (.object (parameterMembers Build.linux none askingClient)) := by
  have hlength : (cjsonCodec.print (.object
      (parameterMembers Build.linux none askingClient))).length ≤ maxParamsJsonString := by
    decide +kernel
  exact (parameter_frame_iff (b := Build.linux) messageTypes_asking noCredentials_token rfl rfl
    (unhindered_short _ hlength)).mpr hlength

/-! ## The result message -/

/-- The statistics of a stream that the result message is made of. -/
structure ReportTypes (sp : Stream) : Prop where
  id : |sp.id| ≤ 2 ^ 64
  bytesTransferred : sp.bytesTransferred < 2 ^ 64
  cntError : |sp.cntError| ≤ 2 ^ 64
  omittedCntError : |sp.omittedCntError| ≤ 2 ^ 64
  packetCount : |sp.packetCount| ≤ 2 ^ 64
  omittedPacketCount : |sp.omittedPacketCount| ≤ 2 ^ 64
  jitter : IsPrintable sp.jitter
  elapsed : IsPrintable sp.elapsed

/-- The members of a side that the result message is made of.  The output of a
server in JSON leaves room for the levels around it. -/
structure ResultTypes (side : TestSide) : Prop where
  cpuUtilTotal : IsPrintable side.cpuUtil.1
  cpuUtilUser : IsPrintable side.cpuUtil.2.1
  cpuUtilSystem : IsPrintable side.cpuUtil.2.2
  senderHasRetransmits : IsInt side.test.senderHasRetransmits
  congestionUsed : IsText side.test.congestionUsed
  jsonTop : Carriable (JsonItem.nestingLimit - 1) side.jsonTop
  serverOutputList : IsCText (String.join side.serverOutputList)
  streams : ∀ sp ∈ side.streams, ReportTypes sp

theorem IperfTime.inSecs_diff_self (time : IperfTime) : (time.diff time).inSecs = 0 := by
  have hcompare : time.compare time = .eq := by
    unfold IperfTime.compare
    simp
  have hzero : (IperfTime.ofCounters 0 0).inSecs = 0 := by decide +kernel
  unfold IperfTime.diff
  rw [hcompare]
  exact hzero

theorem isInt_neg_one : IsInt (-1) :=
  IsInt.of_bounds (by decide) (by decide)

theorem carriable_resultMembers (levels : ℕ) (t : Test) {sp : Stream} (h : ReportTypes sp) :
    CarriableAll levels (resultMembers t sp) := by
  have hretransmits : IsInt (if sp.sender ∧ t.senderHasRetransmits ≠ 0 then
      MachineInt.int32 sp.result.streamRetrans else -1) := by
    split_ifs
    · exact isInt_int32 _
    · exact isInt_neg_one
  have hstart : IsPrintable (sp.result.startTime.diff sp.result.startTime).inSecs := by
    rw [IperfTime.inSecs_diff_self]
    exact isPrintable_of_le (by norm_num)
  unfold resultMembers
  refine .cons (by decide) (.ofInt levels h.id) ?_
  refine .cons (by decide) (carriable_size levels h.bytesTransferred) ?_
  refine .cons (by decide) (carriable_int levels hretransmits) ?_
  refine .cons (by decide) (.number levels h.jitter) ?_
  refine .cons (by decide) (.ofInt levels h.cntError) ?_
  refine .cons (by decide) (.ofInt levels h.omittedCntError) ?_
  refine .cons (by decide) (.ofInt levels h.packetCount) ?_
  refine .cons (by decide) (.ofInt levels h.omittedPacketCount) ?_
  refine .cons (by decide) (.number levels hstart) ?_
  exact .single (by decide) (.number levels h.elapsed)

theorem carriable_serverOutput {side : TestSide} (h : ResultTypes side) :
    CarriableAll (JsonItem.nestingLimit - 1) side.serverOutput := by
  unfold TestSide.serverOutput
  split_ifs
  · exact .single (by decide) h.jsonTop
  · exact .single (by decide) (.string _ h.serverOutputList)
  · exact .nil _

theorem carriable_sendResults {side : TestSide} (h : ResultTypes side) :
    Carriable JsonItem.nestingLimit (sendResults side) := by
  have hretransmits : IsInt (if side.test.mode = .receiver then -1
      else side.test.senderHasRetransmits) := by
    split_ifs
    · exact isInt_neg_one
    · exact h.senderHasRetransmits
  have hstreams : Carriable (JsonItem.nestingLimit - 1)
      (.array (side.streams.map fun sp => .object (resultMembers side.test sp))) := by
    apply Carriable.array (JsonItem.nestingLimit - 2)
    intro j hj
    obtain ⟨sp, hsp, rfl⟩ := List.mem_map.mp hj
    exact .object _ (carriable_resultMembers (JsonItem.nestingLimit - 3) side.test
      (h.streams sp hsp))
  apply Carriable.object (JsonItem.nestingLimit - 1)
  refine .append (.append (.append ?_ (.addString (by decide) h.congestionUsed))
    (carriable_serverOutput h)) (.single (by decide) hstreams)
  refine .cons (by decide) (.number _ h.cpuUtilTotal) ?_
  refine .cons (by decide) (.number _ h.cpuUtilUser) ?_
  refine .cons (by decide) (.number _ h.cpuUtilSystem) ?_
  exact .single (by decide) (carriable_int _ hretransmits)

/-- A result message that nothing hinders goes over exactly when the length of
its text is an `int`. -/
theorem result_frame_iff {side : TestSide} (h : ResultTypes side) {writes : FrameWrites}
    {calls : FrameReads} (hlimit : calls.maxSize = 0)
    (hio : Unhindered (cjsonCodec.print (sendResults side)) writes calls) :
    Transfers cjsonCodec writes calls (sendResults side) ↔
      (cjsonCodec.print (sendResults side)).length < 2147483648 := by
  rw [cjsonCodec_transfers_iff (carriable_sendResults h) hio]
  exact and_iff_left (Or.inl hlimit)

/-- A server with a sending and a receiving stream, whose output was asked
for. -/
def reportingServer : TestSide where
  test := { iperfStart Build.linux with
    role := .server
    mode := .bidirectional
    protocol := .udp
    getServerOutput := 1
    congestionUsed := some "cubic" }
  cpuUtil := (3 / 2, 1, 1 / 2)
  remoteCpuUtil := (0, 0, 0)
  jsonOutput := true
  jsonTop := .object [(.title, .string "run"), (.streams, .array [.ofInt 7, .null])]
  serverOutputList := []
  jsonServerOutput := none
  serverOutputText := none
  streams :=
    [{ iperfNewStream true [] with id := 1, packetCount := 1000, cntError := -1 },
      { iperfNewStream false [] with id := 3, packetCount := 998, cntError := 2, jitter := 1 / 4 }]

theorem reportTypes_reporting : ∀ sp ∈ reportingServer.streams, ReportTypes sp := by
  intro sp hsp
  have hsmall : ∀ q : ℚ, |q| ≤ 1 → IsPrintable q := fun q hq =>
    isPrintable_of_le (hq.trans (by norm_num))
  simp only [reportingServer, List.mem_cons, List.not_mem_nil, or_false] at hsp
  rcases hsp with rfl | rfl
  · constructor
    all_goals first
      | decide +kernel
      | exact hsmall _ (by decide +kernel)
  · constructor
    all_goals first
      | decide +kernel
      | exact hsmall _ (by decide +kernel)

theorem resultTypes_reporting : ResultTypes reportingServer where
  cpuUtilTotal := isPrintable_of_le (by decide +kernel)
  cpuUtilUser := isPrintable_of_le (by decide +kernel)
  cpuUtilSystem := isPrintable_of_le (by decide +kernel)
  senderHasRetransmits := rfl
  congestionUsed := by
    rintro s ⟨⟩
    decide
  jsonTop := by
    refine (Carriable.object 1 (.cons (by decide) (.string 1 (by decide)) (.single (by decide)
      (.array 0 fun j hj => ?_)))).mono (by decide)
    simp only [List.mem_cons, List.not_mem_nil, or_false] at hj
    rcases hj with rfl | rfl
    · exact .ofInt 0 (by decide)
    · exact ⟨by rw [Sendable]; trivial, by decide⟩
  serverOutputList := by decide
  streams := reportTypes_reporting

theorem result_frame_iff_reporting :
    Transfers cjsonCodec shortWrites (shortReads 0) (sendResults reportingServer) := by
  have hlength : (cjsonCodec.print (sendResults reportingServer)).length ≤ 8192 := by
    decide +kernel
  exact (result_frame_iff resultTypes_reporting rfl (unhindered_short 0 hlength)).mpr
    (hlength.trans_lt (by norm_num))

/-! ## The exchange of the parameters -/

/-- What the members of a started client are not known to hold already. -/
structure ClientTexts (auth : ClientAuth) (t : Test) : Prop where
  token : ∀ text, auth = .token text → IsCText text
  title : IsText t.title
  extraData : IsText t.extraData
  congestion : IsText t.congestion
  congestionUsed : IsText t.congestionUsed
  pacingTimer : IsInt t.settings.pacingTimer
  dontFragment : IsInt t.settings.dontFragment

theorem messageTypes_of_client {c : Build} {auth : ClientAuth} {t : Test}
    (hclient : ClientRecord c t) (hsmall : t.SmallNumbers) (htexts : ClientTexts auth t) :
    MessageTypes t := by
  obtain ⟨hbytes, hblocks, hrate, hfqrate⟩ := hsmall
  have hpow : 2 ^ 53 < 2 ^ 64 := by norm_num
  have hbfSize : IsInt t.settings.gsoBfSize := by
    obtain ⟨hlow, hhigh⟩ := hclient.gsoBfSize
    have hmax : gsoBfMaxSize = 65507 := rfl
    exact IsInt.of_bounds (by omega) (by omega)
  exact
    { omitTime := hclient.omitTime
      serverAffinity := hclient.serverAffinity
      duration := hclient.duration
      numStreams := hclient.numStreams
      getServerOutput := hclient.getServerOutput.isInt
      udpCounters64bit := hclient.udpCounters64bit.isInt
      repeatingPayload := hclient.repeatingPayload.isInt
      zerocopy := hclient.zerocopy.isInt
      mss := hclient.mss
      socketBufsize := hclient.socketBufsize
      blksize := hclient.blksize
      pacingTimer := htexts.pacingTimer
      burst := hclient.burst
      gso := hclient.gso.isInt
      gsoDgSize := hclient.gsoDgSize
      gsoBfSize := hbfSize
      gro := hclient.gro.isInt
      groBfSize := hclient.groBfSize
      tos := hclient.tos
      flowlabel := hclient.flowlabel
      dontFragment := htexts.dontFragment
      skipRxCopy := hclient.skipRxCopy.isInt
      bytes := hbytes.trans_lt hpow
      blocks := hblocks.trans_lt hpow
      rate := hrate.trans_lt hpow
      fqrate := hfqrate.trans_lt hpow
      title := htexts.title
      extraData := htexts.extraData
      congestion := htexts.congestion
      congestionUsed := htexts.congestionUsed }

/-- The bytes that a client writes for its parameters, read by a server that has
just started, give the server the client's parameters. -/
theorem parameters_over_text {b c : Build} {clientFile serverFile : Option ℕ}
    {clientOpts serverOpts : List Opt} {client server : Test} {auth : ClientAuth} {j : Json}
    (hclient : parseArguments c clientFile clientOpts (iperfStart c) = .ok client)
    (hclientRole : client.role = .client)
    (hserver : parseArguments b serverFile serverOpts (iperfStart b) = .ok server)
    (hserverRole : server.role = .server)
    (hsupported : b.supports client.protocol = true)
    (hfile : server.diskfileName = none ∨ client.protocol ≠ .udp)
    (opt : Option ℤ) (hsmall : (client.iperfConnect opt).SmallNumbers)
    (htexts : ClientTexts auth (client.iperfConnect opt))
    (hsend : sendParameters c auth (client.iperfConnect opt) = some j)
    (hlength : (cjsonCodec.print j).length ≤ maxParamsJsonString) (rest : List UInt8) :
    SameParameters (client.iperfConnect opt)
      (getParameters b (jsonRead cjsonCodec maxParamsJsonString
        (jsonWrite cjsonCodec j ++ rest)).1 server).1 := by
  have hconnected := connectedClient hclient hclientRole opt
  have htypes := messageTypes_of_client hconnected.toClientRecord hsmall htexts
  have hlimit : maxParamsJsonString < 4294967296 := by decide
  have hcarries := (cjsonCodec_carries_iff maxParamsJsonString
    ((carriable_sendParameters htypes htexts.token hsend).mono (by decide))).mpr
    ⟨hlength.trans_lt hlimit, Or.inr hlength⟩
  obtain ⟨f, hf, hread⟩ := hcarries.jsonRead_eq rest
  obtain ⟨token, hitem⟩ := sendParameters_items hsend
  obtain ⟨a, -, rfl⟩ := parseArguments_serverStart hserver hserverRole
  rw [hread]
  apply SameParameters.sameUpToStatus _ (getParameters_eq b _ (serverStart b a))
  rw [← iperfConnect_protocol opt client] at hsupported hfile
  exact assignParameters_sent hf hitem hconnected hsmall (freshServer_serverStart b a)
    hsupported hfile

theorem parameters_over_text_udp :
    ∃ client server j,
      parseArguments Build.msvc none [.client, .udp, .reverse, .parallel 2]
        (iperfStart Build.msvc) = .ok client ∧
      parseArguments Build.msvc none [.server] (iperfStart Build.msvc) = .ok server ∧
      sendParameters Build.msvc .noCredentials (client.iperfConnect (some 1460)) = some j ∧
      SameParameters (client.iperfConnect (some 1460))
        (getParameters Build.msvc (jsonRead cjsonCodec maxParamsJsonString
          (jsonWrite cjsonCodec j ++ [])).1 server).1 := by
  obtain ⟨client, hclient, hrole, hprotocol, hsmall, htexts, hlength⟩ : ∃ t,
      parseArguments Build.msvc none [.client, .udp, .reverse, .parallel 2]
        (iperfStart Build.msvc) = .ok t ∧ t.role = .client ∧ t.protocol = .udp ∧
      (t.iperfConnect (some 1460)).SmallNumbers ∧
      ClientTexts .noCredentials (t.iperfConnect (some 1460)) ∧
      (cjsonCodec.print (.object (parameterMembers Build.msvc none
        (t.iperfConnect (some 1460))))).length ≤ maxParamsJsonString :=
    ⟨_, rfl, rfl, rfl, ⟨by decide, by decide, by decide, by decide⟩,
      ⟨noCredentials_token, isText_none, isText_none, isText_none, isText_none, rfl, rfl⟩,
      by decide +kernel⟩
  have hsend : sendParameters Build.msvc .noCredentials (client.iperfConnect (some 1460)) =
      some (.object (parameterMembers Build.msvc none (client.iperfConnect (some 1460)))) :=
    rfl
  have hsupported : Build.msvc.supports client.protocol = true := by
    rw [hprotocol]
    rfl
  refine ⟨client, _, _, hclient, parseArguments_server _ _, hsend, ?_⟩
  exact parameters_over_text hclient hrole (parseArguments_server _ none) rfl
    hsupported (Or.inl rfl) (some 1460) hsmall htexts hsend hlength []

end Iperf3

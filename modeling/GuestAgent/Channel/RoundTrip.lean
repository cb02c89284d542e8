import GuestAgent.Agent.Interface
import GuestAgent.Channel.Listen

/-!
# From one end of the channel to the other

A message that is written at one end is read at the other.  On its way it is filtered, given its
name under `__name__`, dumped as JSON, terminated, written in as many pieces as the stream asks for,
read in as many as it likes, cut into lines again, loaded, and parted from its name.  `roundTrip`
says that what comes out of all this, for any number of messages one after the other, is the
messages with their arguments filtered, each once and in order.

They come out up to what JSON does not keep, which is `PyObj.Same`: whether a sequence was a list or
a tuple, whether a string was a byte string, and the order in which a dict goes through its entries.
`Json.RoundTrips` is what is asked of the JSON library, for the objects it is given.
-/

set_option autoImplicit false

namespace GuestAgent

/-! ## The same but for what JSON does not keep -/

mutual

/-- The object `o'` is `o`, but for the type of its sequences and strings and the order of its
dicts. -/
def PyObj.Same : PyObj → PyObj → Prop
  | .none, o' => o' = .none
  | .bool b, o' => o' = .bool b
  | .int n, o' => o' = .int n
  | .float x, o' => o' = .float x
  | .str s, o' => ∃ s', o' = .str s' ∧ s.eq s'
  | .list xs, o' | .tuple xs, o' => ∃ xs', (o' = .list xs' ∨ o' = .tuple xs') ∧ SameObjects xs xs'
  | .dict kvs, o' => ∃ kvs' kvs'', o' = .dict kvs' ∧ kvs'.Perm kvs'' ∧ SameItems kvs kvs''

def SameObjects : List PyObj → List PyObj → Prop
  | [], xs' => xs' = []
  | x :: xs, xs' => ∃ y ys, xs' = y :: ys ∧ x.Same y ∧ SameObjects xs ys

def SameItems : List (PyStr × PyObj) → List (PyStr × PyObj) → Prop
  | [], kvs' => kvs' = []
  | item :: kvs, kvs' =>
    ∃ item' rest, kvs' = item' :: rest ∧ SameItem item item' ∧ SameItems kvs rest

def SameItem : PyStr × PyObj → PyStr × PyObj → Prop
  | (k, v), item' => k.eq item'.1 ∧ v.Same item'.2

end

mutual

theorem PyObj.same_self : (o : PyObj) → o.Same o
  | .none => by rw [PyObj.Same]
  | .bool _ => by rw [PyObj.Same]
  | .int _ => by rw [PyObj.Same]
  | .float _ => by rw [PyObj.Same]
  | .str s => by
    rw [PyObj.Same]
    exact ⟨s, rfl, PyStr.eq_self s⟩
  | .list xs => by
    rw [PyObj.Same]
    exact ⟨xs, .inl rfl, sameObjects_self xs⟩
  | .tuple xs => by
    rw [PyObj.Same]
    exact ⟨xs, .inr rfl, sameObjects_self xs⟩
  | .dict kvs => by
    rw [PyObj.Same]
    exact ⟨kvs, kvs, rfl, .refl kvs, sameItems_self kvs⟩

theorem sameObjects_self : (xs : List PyObj) → SameObjects xs xs
  | [] => by rw [SameObjects]
  | x :: xs => by
    rw [SameObjects]
    exact ⟨x, xs, rfl, x.same_self, sameObjects_self xs⟩

theorem sameItems_self : (kvs : List (PyStr × PyObj)) → SameItems kvs kvs
  | [] => by rw [SameItems]
  | item :: kvs => by
    rw [SameItems]
    exact ⟨item, kvs, rfl, sameItem_self item, sameItems_self kvs⟩

theorem sameItem_self : (item : PyStr × PyObj) → SameItem item item
  | (k, v) => by
    rw [SameItem]
    exact ⟨PyStr.eq_self k, v.same_self⟩

end

theorem SameItems.concat {kvs kvs' : List (PyStr × PyObj)} {item : PyStr × PyObj}
    (h : SameItems (kvs ++ [item]) kvs') :
    ∃ kvs'' item', kvs' = kvs'' ++ [item'] ∧ SameItems kvs kvs'' ∧ SameItem item item' := by
  induction kvs generalizing kvs' with
  | nil =>
    rw [List.nil_append, SameItems] at h
    obtain ⟨item', rest, rfl, hitem, hrest⟩ := h
    rw [SameItems] at hrest
    exact ⟨[], item', by rw [hrest, List.nil_append], by rw [SameItems], hitem⟩
  | cons first kvs ih =>
    rw [List.cons_append, SameItems] at h
    obtain ⟨first', rest, rfl, hfirst, hrest⟩ := h
    obtain ⟨kvs'', item', rfl, hkvs, hitem⟩ := ih hrest
    refine ⟨first' :: kvs'', item', rfl, ?_, hitem⟩
    rw [SameItems]
    exact ⟨first', kvs'', rfl, hfirst, hkvs⟩

theorem SameItems.absent {kvs kvs' : Dict} {k : PyStr} (h : SameItems kvs kvs')
    (habsent : kvs.Absent k) : Dict.Absent k kvs' := by
  induction kvs generalizing kvs' with
  | nil =>
    rw [SameItems] at h
    rwa [h]
  | cons item kvs ih =>
    obtain ⟨k', v⟩ := item
    rw [SameItems] at h
    obtain ⟨item', rest, rfl, hitem, hrest⟩ := h
    obtain ⟨hk, hkvs⟩ := List.forall_mem_cons.mp habsent
    refine List.forall_mem_cons.mpr ⟨?_, ih hrest hkvs⟩
    rw [SameItem] at hitem
    by_contra hk'
    rw [Bool.not_eq_false] at hk'
    cases hk.symm.trans (PyStr.eq_trans hitem.1 hk')

/-! ## Taking a message apart -/

section Dict

variable {k : PyStr} {d : Dict} {item : PyStr × PyObj}

theorem Dict.get?_of_unique (hmem : item ∈ d) (hk : item.1.eq k)
    (hunique : ∀ item' ∈ d, item'.1.eq k → item' = item) : d.get? k = some item.2 := by
  induction d with
  | nil => cases hmem
  | cons item' d ih =>
    obtain ⟨k', v⟩ := item'
    rw [Dict.get?]
    split
    · rename_i hk'
      rw [← hunique _ List.mem_cons_self hk']
    · rename_i hk'
      refine ih ?_ fun item' hitem' ↦ hunique item' (List.mem_cons_of_mem _ hitem')
      refine (List.mem_cons.mp hmem).resolve_left ?_
      rintro rfl
      exact hk' hk

/-- The one entry with the key `k`, in whatever order the dict goes through its entries. -/
theorem Dict.get?_of_perm {d' : Dict} (hperm : d'.Perm (d ++ [item])) (habsent : d.Absent k)
    (hk : item.1.eq k) : Dict.get? k d' = some item.2 := by
  refine Dict.get?_of_unique (hperm.mem_iff.mpr (by simp)) hk fun item' hitem' hk' ↦ ?_
  rcases List.mem_append.mp (hperm.mem_iff.mp hitem') with hitem' | hitem'
  · cases (habsent item' hitem').symm.trans hk'
  · exact List.mem_singleton.mp hitem'

theorem Dict.del_of_perm {d' : Dict} (hperm : d'.Perm (d ++ [item])) (habsent : d.Absent k)
    (hk : item.1.eq k) : (Dict.del k d').Perm d := by
  have hd : d.filter (fun p ↦ !p.1.eq k) = d := by
    rw [List.filter_eq_self]
    intro item' hitem'
    rw [habsent item' hitem']
    rfl
  have hitem : [item].filter (fun p ↦ !p.1.eq k) = [] := by simp [hk]
  have hfilter := hperm.filter fun p ↦ !p.1.eq k
  rwa [List.filter_append, hd, hitem, List.append_nil] at hfilter

end Dict

/-- A dict with one more entry, as it comes back, is the dict with that entry. -/
theorem PyObj.Same.parts {k : PyStr} {v : PyObj} {d : Dict} {o' : PyObj}
    (h : (PyObj.dict (d ++ [(k, v)])).Same o') (hk : k.eq nameKey)
    (habsent : d.Absent nameKey) : ∃ kvs v', o' = .dict kvs ∧ Dict.get? nameKey kvs = some v' ∧
      v.Same v' ∧ (PyObj.dict d).Same (.dict (Dict.del nameKey kvs)) := by
  rw [PyObj.Same] at h
  obtain ⟨kvs, kvs', rfl, hperm, hitems⟩ := h
  obtain ⟨d', ⟨k', v'⟩, rfl, hd, hitem⟩ := hitems.concat
  rw [SameItem] at hitem
  have hk' : k'.eq nameKey := PyStr.eq_trans (PyStr.eq_symm hitem.1) hk
  have habsent' := hd.absent habsent
  refine ⟨kvs, v', rfl, Dict.get?_of_perm hperm habsent' hk', hitem.2, ?_⟩
  rw [PyObj.Same]
  exact ⟨_, d', rfl, Dict.del_of_perm hperm habsent' hk', hd⟩

/-! ## Messages -/

/-- What is asked of the JSON library for an object: it is dumped as one line of ASCII, and loading
that line gives the object back. -/
structure Json.RoundTrips (json : Json) (o : PyObj) : Prop where
  exists_line : ∃ line : Bytes, json.dumps o = .ok (.str line) ∧
    (∀ x ∈ line, x < 0x80 ∧ x ≠ newline) ∧
    ∃ o', json.loads (line.map UInt8.toNat) = .ok o' ∧ o.Same o'

/-- The name of a message, as it is passed to `write`. -/
def MessageName.bytes (name : MessageName) : Bytes := ascii name.wire

theorem MessageName.bytes_ne_nil (name : MessageName) : name.bytes ≠ [] := by
  cases name <;> decide

theorem MessageName.isNameByte_bytes (name : MessageName) : name.bytes.all isNameByte := by
  cases name <;> decide

/-- A message that can be written: its arguments have no key `__name__`, and with that key their
keys stay distinct under the filter.  The values may be anything. -/
structure Message (locale : Locale) where
  name : MessageName
  args : Dict
  absent : args.Absent nameKey
  distinct : (args.set nameKey (.str (.str name.bytes))).Pairwise fun p q ↦
    (filterString locale p.1).eq (filterString locale q.1) = false

variable {locale : Locale}

/-- The name as an object. -/
def Message.nameObj (msg : Message locale) : PyObj := .str (.str msg.name.bytes)

/-- The object that is dumped for a message. -/
def Message.filtered (msg : Message locale) : PyObj :=
  filterObject locale (.dict (msg.args.set nameKey msg.nameObj))

/-- `write` of a message, as far as the stream goes along. -/
def Message.write (json : Json) (msg : Message locale) (events : List WriteEvent) : Written :=
  channelWrite locale json msg.nameObj (.dict msg.args) events

/-- What is read for a message: its name, and its arguments filtered. -/
def Message.ReadAs (msg : Message locale) (got : Option (PyObj × Dict)) : Prop :=
  ∃ name args, got = some (name, args) ∧ msg.nameObj.Same name ∧
    (filterObject locale (.dict msg.args)).Same (.dict args)

/-- The key `__name__` is filtered next to the other keys. -/
theorem Message.filtered_eq (msg : Message locale) : ∃ d : Dict, d.Absent nameKey ∧
    filterObject locale (.dict msg.args) = .dict d ∧
    msg.filtered = .dict (d ++ [(.unicode (u "__name__"),
      .str (.unicode (msg.name.bytes.map UInt8.toNat)))]) := by
  have hkey : filterString locale nameKey = .unicode (u "__name__") :=
    filterString_name (by decide) (by decide)
  have hname : filterString locale (.str msg.name.bytes) =
      .unicode (msg.name.bytes.map UInt8.toNat) :=
    filterString_name msg.name.bytes_ne_nil msg.name.isNameByte_bytes
  have hapart : ∀ item ∈ msg.args, (filterString locale item.1).eq (filterString locale nameKey) =
      false := by
    have hdistinct := msg.distinct
    rw [Dict.set_of_absent msg.absent, List.pairwise_append] at hdistinct
    exact fun item hitem ↦ hdistinct.2.2 item hitem _ (List.mem_singleton_self _)
  refine ⟨Dict.ofItems (filterItems locale msg.args), ?_, by rw [filterObject], ?_⟩
  · refine Dict.absent_ofItems ?_
    rw [filterItems_eq_map, List.forall_mem_map]
    rintro ⟨k, v⟩ hitem
    rw [filterItem]
    by_contra hk
    rw [Bool.not_eq_false] at hk
    have hk' : (filterString locale k).eq (filterString locale nameKey) := by
      rw [hkey]
      exact PyStr.eq_trans hk (by decide)
    cases (hapart _ hitem).symm.trans hk'
  · rw [Message.filtered, filterObject_set msg.absent hapart, hkey, Message.nameObj, filterObject,
      hname]

/-- The name is the same as a Unicode string. -/
theorem Message.nameObj_same (msg : Message locale) {o' : PyObj}
    (h : (PyObj.str (.unicode (msg.name.bytes.map UInt8.toNat))).Same o') :
    msg.nameObj.Same o' := by
  have hall : msg.name.bytes.all (· < 128) := by
    cases msg.name <;> decide
  have hunicode : (PyStr.str msg.name.bytes).eq (.unicode (msg.name.bytes.map UInt8.toNat)) := by
    rw [PyStr.eq, hall, Bool.true_and, beq_self_eq_true]
  rw [PyObj.Same] at h
  obtain ⟨s, rfl, hs⟩ := h
  rw [Message.nameObj, PyObj.Same]
  exact ⟨s, rfl, PyStr.eq_trans hunicode hs⟩

/-- `write` writes the line a message is dumped as, and terminates it. -/
theorem Message.write_eq {json : Json} {msg : Message locale} {line : Bytes}
    (hdumps : json.dumps msg.filtered = .ok (.str line)) (hline : ∀ x ∈ line, x < 0x80)
    (events : List WriteEvent) :
    msg.write json events = writeLoop (Framing.terminate newline line) events := by
  have hall : (line ++ [newline]).all (· < 128) := by
    rw [List.all_eq_true]
    intro x hx
    rcases List.mem_append.mp hx with hx | hx
    · exact decide_eq_true (hline x hx)
    · rw [List.mem_singleton.mp hx]
      decide
  have hencode : encodeMessage locale json msg.nameObj (.dict msg.args) =
      json.dumps msg.filtered >>= fun text ↦ (PyObj.str (addNewline text)).encode := rfl
  have hterminate : encodeMessage locale json msg.nameObj (.dict msg.args) =
      .ok (Framing.terminate newline line) := by
    rw [hencode, hdumps]
    exact if_pos hall
  rw [Message.write, channelWrite, hterminate]

/-- What `write` makes of a message is a line, and `_parseLine` makes the message of it again. -/
theorem Message.exists_line {json : Json} (msg : Message locale)
    (hjson : json.RoundTrips msg.filtered) : ∃ line : Bytes, newline ∉ line ∧
      (∀ events, msg.write json events = writeLoop (Framing.terminate newline line) events) ∧
      msg.ReadAs (parseLine json line) := by
  obtain ⟨line, hdumps, hline, o', hloads, hsame⟩ := hjson.exists_line
  have hascii : ∀ x ∈ line, x < 0x80 := fun x hx ↦ (hline x hx).1
  obtain ⟨d, habsent, hfilter, hfiltered⟩ := msg.filtered_eq
  rw [hfiltered] at hsame
  obtain ⟨kvs, v', rfl, hget, hname, hargs⟩ := hsame.parts (by decide) habsent
  refine ⟨line, fun hmem ↦ (hline _ hmem).2 rfl, Message.write_eq hdumps hascii, v',
    Dict.del nameKey kvs, ?_, msg.nameObj_same hname, by rwa [hfilter]⟩
  rw [parseLine, decodeUtf8_ascii hascii, Option.map_some, hloads]
  dsimp only
  rw [hget, Option.map_some]

/-! ## A message without arguments -/

def Message.bare (locale : Locale) (name : MessageName) : Message locale where
  name := name
  args := []
  absent := nofun
  distinct := List.pairwise_singleton _ _

theorem roundTrips_bare (name : MessageName) :
    (Json.bare name.wire).RoundTrips (Message.bare locale name).filtered := by
  have hline : ∀ x ∈ bareLine name.wire, x < 0x80 ∧ x ≠ newline := by
    rw [bareLine, List.forall_mem_append, List.forall_mem_append]
    refine ⟨⟨by decide +kernel, fun x hx ↦ ?_⟩, by decide +kernel⟩
    have hx : isNameByte x = true := List.all_eq_true.mp name.isNameByte_bytes x hx
    obtain ⟨hlow, hhigh⟩ := toNat_bounds_of_isNameByte hx
    refine ⟨UInt8.lt_iff_toNat_lt.mpr (hhigh.trans (by decide)), ?_⟩
    rintro rfl
    exact absurd hlow (by decide)
  have hname : name.bytes.map UInt8.toNat = u name.wire := by cases name <;> decide +kernel
  obtain ⟨d, -, hargs, hfiltered⟩ := (Message.bare locale name).filtered_eq
  obtain rfl : [] = d := PyObj.dict.inj hargs
  refine ⟨bareLine name.wire, rfl, hline, _, loads_bare name.wire, ?_⟩
  rw [hfiltered, PyObj.Same]
  refine ⟨_, _, rfl, .refl _, ?_⟩
  rw [List.nil_append, SameItems]
  refine ⟨_, _, rfl, ?_, by rw [SameItems]⟩
  rw [SameItem, PyObj.Same]
  exact ⟨PyStr.eq_self _, _, rfl, by rw [← hname]; exact PyStr.eq_self _⟩

/-! ## From one end to the other -/

/-- Successive calls of `read`, until one waits. -/
def channelReads (json : Json) : ℕ → Reader →
    List (Except PyExn (Option (PyObj × Dict))) × Reader
  | 0, r => ([], r)
  | n + 1, r =>
    match channelRead json r with
    | (some out, r) => (out :: (channelReads json n r).1, (channelReads json n r).2)
    | (none, r) => ([], r)

theorem channelReads_eq (json : Json) (n : ℕ) (r : Reader) : channelReads json n r =
    ((readlines n r).1.map (Except.map (parseLine json)), (readlines n r).2) := by
  induction n generalizing r with
  | zero => rfl
  | succ n ih =>
    rw [channelReads, channelRead, readlines]
    rcases readline r with ⟨_ | out, r'⟩
    · rfl
    · simp only [Option.map_some, ih, List.map_cons]

@[simp] theorem delivered_data (chunks : List Bytes) :
    delivered (chunks.map .data) = chunks.flatten := by
  induction chunks with
  | nil => rfl
  | cons chunk chunks ih => rw [List.map_cons, delivered, ih, List.flatten_cons]

@[simp] theorem failures_data (chunks : List Bytes) : failures (chunks.map .data) = 0 := by
  induction chunks with
  | nil => rfl
  | cons chunk chunks ih => rwa [List.map_cons, failures]

/-- Where no read fails, every call of `_readline` returns. -/
theorem readlines_of_no_failures {n : ℕ} {r : Reader} (h : failures r.events = 0) :
    (readlines n r).1 = (returned (readlines n r).1).map .ok := by
  induction n generalizing r with
  | zero => rfl
  | succ n ih =>
    have hreads := readline_reads r
    rw [readlines]
    rcases hr : readline r with ⟨_ | out, r'⟩
    · rfl
    · rw [hr] at hreads
      cases hreads with
      | line line _ hlines htail hfailures =>
        show .ok line :: (readlines n r').1 = .ok line :: (returned (readlines n r').1).map .ok
        rw [← ih (hfailures.symm.trans h)]
      | failed e _ hahead hfailures => omega

/-- The messages leave as lines that are read as the messages. -/
theorem exists_lines {json : Json} {msgs : List (Message locale × List WriteEvent)}
    (hjson : ∀ m ∈ msgs, json.RoundTrips m.1.filtered)
    (hended : ∀ m ∈ msgs, (m.1.write json m.2).outcome = some (.ok ())) :
    ∃ lines : List Bytes, (∀ line ∈ lines, newline ∉ line) ∧
      msgs.flatMap (fun m ↦ (m.1.write json m.2).taken) =
        lines.flatMap (Framing.terminate newline) ∧
      List.Forall₂ (fun m line ↦ m.1.ReadAs (parseLine json line)) msgs lines := by
  induction msgs with
  | nil => exact ⟨[], nofun, rfl, .nil⟩
  | cons m msgs ih =>
    rw [List.forall_mem_cons] at hjson hended
    obtain ⟨line, hline, hwrite, hread⟩ := m.1.exists_line hjson.1
    obtain ⟨lines, hlines, htaken, hreads⟩ := ih hjson.2 hended.2
    refine ⟨line :: lines, List.forall_mem_cons.mpr ⟨hline, hlines⟩, ?_, .cons hread hreads⟩
    have hended' := hended.1
    rw [hwrite] at hended'
    rw [List.flatMap_cons, List.flatMap_cons, htaken, hwrite, taken_of_ended hended']

/-- **What is written is read.**  The messages written one after the other, in whatever pieces the
stream takes them, are read at the other end in whatever pieces it gives, each once and in order. -/
theorem roundTrip {json : Json} {msgs : List (Message locale × List WriteEvent)}
    {chunks : List Bytes} {n : ℕ} (hjson : ∀ m ∈ msgs, json.RoundTrips m.1.filtered)
    (hended : ∀ m ∈ msgs, (m.1.write json m.2).outcome = some (.ok ()))
    (hchunks : chunks.flatten = msgs.flatMap fun m ↦ (m.1.write json m.2).taken)
    (hn : msgs.length < n) :
    ∃ got, channelReads json n ⟨[], chunks.map .data⟩ = (got.map .ok, ⟨[], []⟩) ∧
      List.Forall₂ (fun m out ↦ m.1.ReadAs out) msgs got := by
  obtain ⟨lines, hlines, htaken, hreads⟩ := exists_lines hjson hended
  have hstream : delivered (chunks.map .data) =
      lines.flatMap (Framing.terminate newline) ++ [] := by
    rw [delivered_data, hchunks, htaken, List.append_nil]
  have hcut : Framing.lines newline (delivered (chunks.map .data)) = lines := by
    rw [hstream]
    exact Framing.lines_terminate hlines List.not_mem_nil
  have hpending : Reader.pending ⟨[], chunks.map .data⟩ < n := by
    rw [Reader.pending, failures_data, Reader.lines, Reader.ahead, List.nil_append, hcut,
      ← hreads.length_eq]
    exact hn
  obtain ⟨hreturned, hbuffer⟩ := readlines_eq hpending
  obtain ⟨hevents, -⟩ := readlines_waiting hpending
  rw [hstream, Framing.tail_terminate hlines List.not_mem_nil] at hbuffer
  have hreader : (readlines n ⟨[], chunks.map .data⟩).2 = ⟨[], []⟩ := Reader.ext hbuffer hevents
  refine ⟨lines.map (parseLine json), ?_, by rwa [List.forall₂_map_right_iff]⟩
  rw [channelReads_eq, readlines_of_no_failures (failures_data chunks), hreturned, hcut, hreader,
    List.map_map, List.map_map]
  rfl

/-- A message that is written in three pieces. -/
def lockMessage : Message .ascii × List WriteEvent :=
  (.bare .ascii .sessionLock, [.accepted 0, .accepted 20, .accepted 100])

/-- One that reports a disk, whose path has a character that is filtered. -/
def disksMessage : Message .ascii × List WriteEvent where
  fst :=
    { name := .disksUsage
      args := [(key "disks", .list [.dict [(key "path", .ofString "/\x01"),
        (key "total", .ofString "10"), (key "used", .ofString "4")]]), (key "mapping", .dict [])]
      absent := List.forall_mem_cons.mpr ⟨by decide, List.forall_mem_singleton.mpr (by decide)⟩
      distinct := by decide +kernel }
  snd := [.accepted 64, .accepted 64]

/-- The line it is dumped as. -/
def disksLine : Bytes :=
  ascii "\x7b\"mapping\": \x7b\x7d, \"__name__\": \"disks-usage\", \"disks\": [\x7b\"path\": \"/" ++
    ascii "\\ufffd\", \"total\": \"10\", \"used\": \"4\"\x7d]\x7d"

/-- What is loaded as the disks. -/
def loadedDisks : PyStr × PyObj :=
  (.unicode (u "disks"), .list [.dict [(.unicode (u "path"), .str (.unicode (u "/" ++ [0xFFFD]))),
    (.unicode (u "total"), .str (.unicode (u "10"))),
    (.unicode (u "used"), .str (.unicode (u "4")))]])

/-- A JSON library, as far as it is needed for the two. -/
def Json.lockOrDisks : Json where
  dumps
    | .dict kvs => .ok (.str (if Dict.contains (key "disks") kvs then disksLine
        else bareLine "session-lock"))
    | _ => .error .typeError
  loads t :=
    if t = disksLine.map UInt8.toNat then
      .ok (.dict [(.unicode (u "mapping"), .dict []),
        (.unicode (u "__name__"), .ofString "disks-usage"), loadedDisks])
    else (Json.bare "session-lock").loads t

theorem roundTrips_lockMessage : Json.lockOrDisks.RoundTrips lockMessage.1.filtered := by
  obtain ⟨line, hdumps, hline, o', hloads, hsame⟩ := @roundTrips_bare .ascii .sessionLock
  obtain rfl : bareLine "session-lock" = line := PyStr.str.inj (Except.ok.inj hdumps)
  have hne : (bareLine "session-lock").map UInt8.toNat ≠ disksLine.map UInt8.toNat := by
    decide +kernel
  have hboth : Json.lockOrDisks.loads ((bareLine "session-lock").map UInt8.toNat) = .ok o' := by
    rw [Json.lockOrDisks]
    dsimp only
    rw [if_neg hne]
    exact hloads
  exact ⟨_, rfl, hline, o', hboth, hsame⟩

theorem roundTrips_disksMessage : Json.lockOrDisks.RoundTrips disksMessage.1.filtered := by
  have hloads : Json.lockOrDisks.loads (disksLine.map UInt8.toNat) = .ok (.dict
      [(.unicode (u "mapping"), .dict []), (.unicode (u "__name__"), .ofString "disks-usage"),
        loadedDisks]) := by
    rw [Json.lockOrDisks]
    dsimp only
    rw [if_pos rfl]
  refine ⟨disksLine, rfl, by decide +kernel, _, hloads, ?_⟩
  have hfiltered : disksMessage.1.filtered = .dict [loadedDisks, (.unicode (u "mapping"), .dict []),
      (.unicode (u "__name__"), .ofString "disks-usage")] := by rfl
  rw [hfiltered, PyObj.Same]
  exact ⟨_, _, rfl, List.perm_append_singleton loadedDisks [_, _], sameItems_self _⟩

/-- Both are read, in four pieces, of which the third ends within the second message. -/
theorem roundTrip_lockDisks : ∃ got,
    channelReads .lockOrDisks 3 ⟨[], [.data ((bareLine "session-lock").take 9), .data [],
      .data ((bareLine "session-lock").drop 9 ++ newline :: disksLine.take 30),
      .data (disksLine.drop 30 ++ [newline])]⟩ = (got.map .ok, ⟨[], []⟩) ∧
    List.Forall₂ (fun m out ↦ m.1.ReadAs out) [lockMessage, disksMessage] got := by
  have hlock : lockMessage.1.write .lockOrDisks lockMessage.2 =
      writeLoop (Framing.terminate newline (bareLine "session-lock")) lockMessage.2 :=
    Message.write_eq rfl (by decide +kernel) lockMessage.2
  have hdisks : disksMessage.1.write .lockOrDisks disksMessage.2 =
      writeLoop (Framing.terminate newline disksLine) disksMessage.2 :=
    Message.write_eq rfl (by decide +kernel) disksMessage.2
  have hjson : ∀ m ∈ [lockMessage, disksMessage], Json.lockOrDisks.RoundTrips m.1.filtered :=
    List.forall_mem_cons.mpr
      ⟨roundTrips_lockMessage, List.forall_mem_singleton.mpr roundTrips_disksMessage⟩
  have hended : ∀ m ∈ [lockMessage, disksMessage],
      (m.1.write .lockOrDisks m.2).outcome = some (.ok ()) := by
    rw [List.forall_mem_cons, List.forall_mem_singleton, hlock, hdisks]
    decide +kernel
  have hchunks : List.flatten [(bareLine "session-lock").take 9, [],
      (bareLine "session-lock").drop 9 ++ newline :: disksLine.take 30,
      disksLine.drop 30 ++ [newline]] =
        [lockMessage, disksMessage].flatMap fun m ↦ (m.1.write .lockOrDisks m.2).taken := by
    rw [List.flatMap_cons, List.flatMap_singleton, hlock, hdisks]
    decide +kernel
  exact roundTrip hjson hended hchunks (by decide)

end GuestAgent

import HttpsDnsProxy.AddrLists

/-!
# The list of addresses of a lookup

`get_addr_listing` writes the texts of the addresses that c-ares has found into a buffer of
`POLLER_ADDR_LIST_SIZE` bytes, each with a comma behind it, and puts a NUL in the place of the
last comma. It stops at the first text that does not fit.

`ares_inet_ntop` is outside the program and a parameter. What is assumed of it (`InetNtop.Writes`)
is that it writes the text and a NUL if there is room for both in the size it is given, and
otherwise writes nothing and returns NULL. A write beyond the end of the buffer would be `none`.

* `getAddrListing_eq` : the list is made of whole texts, those that fit one after the other;
* `isAddrList_getAddrListing` : it is a list as `dns_poll_cb` expects it;
* `keepsAll_iff` : no address is left out if the texts, each with one byte more, take 1023 bytes.

64 IPv4 texts of 15 characters take 1024 bytes (`addrListing_capacity_iff`).
-/

namespace HttpsDnsProxy

/-- The text of an IPv4 or IPv6 address : `INET6_ADDRSTRLEN` is 46, with the NUL. -/
structure AddrText where
  text : CString
  ne_nil : text ≠ []
  comma : ',' ∉ text
  nul : CStrings.nul ∉ text
  length_le : text.length ≤ 45

/-- A `struct ares_addrinfo_node` : its family and the text of its address. -/
inductive AddrNode where
  | inet (addr : AddrText)
  | inet6 (addr : AddrText)
  | other (family : ℕ)

/-- The address of a node of a family that `get_addr_listing` handles. -/
def AddrNode.addr : AddrNode → Option AddrText
  | .inet addr | .inet6 addr => some addr
  | .other _ => none

/-- Why the loop of `get_addr_listing` ends : there are no more nodes, no space for a character
and a NUL, no space for a comma, or none for the next text. -/
inductive ListingEnd where
  | nodes
  | noSpace
  | noComma
  | noText
  deriving DecidableEq, Repr

/-- `ares_inet_ntop` for an address, with the buffer from `pos` on and the size it is given :
whether it returns the buffer, and the buffer after it. -/
abbrev InetNtop :=
  AddrText → List Char → (pos size : ℕ) → Option (Bool × List Char)

/-- What is assumed of `ares_inet_ntop` : a text that fits with its NUL is written, and otherwise
nothing. -/
structure InetNtop.Writes (ntop : InetNtop) : Prop where
  fits : ∀ {addr : AddrText} {size : ℕ}, addr.text.length + 1 ≤ size → ∀ buf pos,
    ntop addr buf pos size =
      (CStrings.store buf pos (addr.text ++ [CStrings.nul])).map fun buf => (true, buf)
  tooLong : ∀ {addr : AddrText} {size : ℕ}, size < addr.text.length + 1 → ∀ buf pos,
    ntop addr buf pos size = some (false, buf)

section Listing

variable (ntop : InetNtop)

/-- The loop of `get_addr_listing` : why it ends, with the buffer and `pos` then. -/
def listNodes : List AddrNode → List Char → ℕ → Option (ListingEnd × List Char × ℕ)
  | [], buf, pos => some (.nodes, buf, pos)
  | node :: nodes, buf, pos =>
    if pos ≥ pollerAddrListSize - 1 then some (.noSpace, buf, pos)
    else
      let remaining := pollerAddrListSize - 1 - pos
      match node.addr with
      | none => listNodes nodes buf pos
      | some addr =>
        match ntop addr buf pos remaining with
        | none => none
        | some (false, buf) => some (.noText, buf, pos)
        | some (true, buf) =>
          let pos := pos + (CStrings.text (buf.drop pos)).length
          if pos ≥ pollerAddrListSize - 1 then some (.noComma, buf, pos)
          else
            match CStrings.store buf pos [','] with
            | none => none
            | some buf => listNodes nodes buf (pos + 1)

/-- `get_addr_listing` : why its loop ended, with the buffer it returns, if that is not NULL. -/
def getAddrListing (nodes : List AddrNode) : Option (ListingEnd × Option (List Char)) :=
  match listNodes ntop nodes (List.replicate pollerAddrListSize CStrings.nul) 0 with
  | none => none
  | some (how, buf, pos) =>
    if pos = 0 then some (how, none)
    else (CStrings.store buf (pos - 1) [CStrings.nul]).map fun buf => (how, some buf)

end Listing

/-! ## Texts that fit -/

/-- The texts of the IPv4 and IPv6 nodes. -/
def addrTexts (nodes : List AddrNode) : List CString :=
  nodes.filterMap fun node => node.addr.map AddrText.text

/-- The bytes that texts take, each with a byte behind it. -/
def spaceFor (texts : List CString) : ℕ :=
  (texts.map fun t => t.length + 1).sum

/-- `kept` is the longest initial segment of the texts that fits. As the texts are written one
after the other, each of them has fitted in its turn. -/
structure Longest (kept texts : List CString) : Prop where
  isPrefix : kept <+: texts
  fits : spaceFor kept ≤ pollerAddrListSize - 1
  next : ∀ t, kept ++ [t] <+: texts → pollerAddrListSize - 1 < spaceFor (kept ++ [t])

/-- The texts with a comma behind each. -/
def trail (texts : List CString) : CString :=
  texts.flatMap (· ++ [','])

theorem spaceFor_concat (texts : List CString) (t : CString) :
    spaceFor (texts ++ [t]) = spaceFor texts + (t.length + 1) := by
  simp [spaceFor]

theorem trail_concat (texts : List CString) (t : CString) :
    trail (texts ++ [t]) = trail texts ++ t ++ [','] := by
  simp [trail]

@[simp] theorem length_trail (texts : List CString) : (trail texts).length = spaceFor texts := by
  simp [trail, spaceFor, List.length_flatMap]

/-- With a NUL in the place of the last comma the texts are a list. -/
theorem trail_eq_commaList : ∀ {texts : List CString}, texts ≠ [] →
    trail texts = commaList texts ++ [',']
  | [], h => absurd rfl h
  | [t], _ => by simp [trail, commaList]
  | t :: t' :: texts, _ => by
    have ih : trail (t' :: texts) = commaList (t' :: texts) ++ [','] :=
      trail_eq_commaList (List.cons_ne_nil _ _)
    have htrail : trail (t :: t' :: texts) = t ++ [','] ++ trail (t' :: texts) := by simp [trail]
    rw [htrail, ih, commaList, commaList, List.intercalate_cons_cons, List.append_assoc _ _ [',']]

/-- If the next text does not fit, the segment does not go on. -/
theorem longest_of_tooLong {kept texts : List CString}
    (hfits : spaceFor kept ≤ pollerAddrListSize - 1)
    (hnext : ∀ t ∈ texts.head?, pollerAddrListSize - 1 < spaceFor (kept ++ [t])) :
    Longest (kept ++ []) (kept ++ texts) where
  isPrefix := by
    rw [List.append_nil]
    exact List.prefix_append _ _
  fits := by
    rw [List.append_nil]
    exact hfits
  next t ht := by
    rw [List.append_nil] at ht ⊢
    obtain ⟨rest, hrest⟩ := (List.prefix_append_right_inj kept).1 ht
    exact hnext t (by rw [← hrest]; rfl)

/-! ## The loop -/

section Loop

variable {ntop : InetNtop} (hntop : ntop.Writes)

include hntop

/-- A text that fits is written with a comma behind it. -/
theorem listNodes_fits {node : AddrNode} {addr : AddrText} (haddr : node.addr = some addr)
    (nodes : List AddrNode) {kept : List CString} {rest : List Char}
    (hlen : spaceFor kept + rest.length = pollerAddrListSize)
    (hfits : spaceFor (kept ++ [addr.text]) ≤ pollerAddrListSize - 1) :
    listNodes ntop (node :: nodes) (trail kept ++ rest) (spaceFor kept) =
      listNodes ntop nodes (trail (kept ++ [addr.text]) ++ rest.drop (addr.text.length + 1))
        (spaceFor (kept ++ [addr.text])) := by
  rw [spaceFor_concat] at hfits
  unfold pollerAddrListSize at hlen hfits
  have hwritten : ntop addr (trail kept ++ rest) (spaceFor kept)
      (1024 - 1 - spaceFor kept) = some (true,
        trail kept ++ (addr.text ++ CStrings.nul :: rest.drop (addr.text.length + 1))) := by
    have hroom : (addr.text ++ [CStrings.nul]).length ≤ rest.length := by
      rw [List.length_append, List.length_singleton]
      omega
    have hstore : CStrings.store (trail kept ++ rest) (trail kept).length _ = _ :=
      CStrings.store_append hroom
    rw [length_trail, List.length_append, List.length_singleton, List.append_assoc] at hstore
    rw [hntop.fits (by omega), hstore]
    rfl
  have hstrlen : (CStrings.text ((trail kept ++ (addr.text ++ CStrings.nul ::
      rest.drop (addr.text.length + 1))).drop (spaceFor kept))).length = addr.text.length := by
    rw [← length_trail, List.drop_left, CStrings.text_append_nul addr.nul]
  have hcomma : CStrings.store (trail kept ++ (addr.text ++ CStrings.nul ::
      rest.drop (addr.text.length + 1))) (spaceFor kept + addr.text.length) [','] =
      some (trail (kept ++ [addr.text]) ++ rest.drop (addr.text.length + 1)) := by
    have hroom : [','].length ≤ (CStrings.nul :: rest.drop (addr.text.length + 1)).length := by simp
    have hstore : CStrings.store ((trail kept ++ addr.text) ++ _)
        (trail kept ++ addr.text).length _ = _ := CStrings.store_append hroom
    rw [List.length_append, length_trail] at hstore
    rw [← List.append_assoc, hstore, trail_concat]
    simp
  rw [listNodes]
  simp only [pollerAddrListSize, haddr, hwritten, hstrlen, hcomma]
  rw [if_neg (by omega), if_neg (by omega), spaceFor_concat, Nat.add_assoc]

/-- A text that does not fit ends the loop. -/
theorem listNodes_tooLong {node : AddrNode} {addr : AddrText} (haddr : node.addr = some addr)
    (nodes : List AddrNode) {kept : List CString} (buf : List Char)
    (hlong : pollerAddrListSize - 1 < spaceFor (kept ++ [addr.text])) :
    ∃ how, how ≠ .noComma ∧
      listNodes ntop (node :: nodes) buf (spaceFor kept) = some (how, buf, spaceFor kept) := by
  rw [spaceFor_concat] at hlong
  rw [listNodes]
  split_ifs with hspace
  · exact ⟨.noSpace, by simp, rfl⟩
  · refine ⟨.noText, by simp, ?_⟩
    simp only [haddr]
    rw [hntop.tooLong (by omega)]

/-- The loop, with the texts of `kept` in the buffer : it writes the longest segment of the other
texts that fits behind them. -/
theorem listNodes_eq :
    ∀ (nodes : List AddrNode) {kept : List CString} {rest : List Char},
      spaceFor kept + rest.length = pollerAddrListSize →
      spaceFor kept ≤ pollerAddrListSize - 1 →
      ∃ how more rest', how ≠ .noComma ∧ Longest (kept ++ more) (kept ++ addrTexts nodes) ∧
        spaceFor (kept ++ more) + rest'.length = pollerAddrListSize ∧
        listNodes ntop nodes (trail kept ++ rest) (spaceFor kept) =
          some (how, trail (kept ++ more) ++ rest', spaceFor (kept ++ more))
  | [], kept, rest, hlen, hfits => by
    refine ⟨.nodes, [], rest, by simp, longest_of_tooLong hfits (by simp [addrTexts]), ?_, ?_⟩
    · rw [List.append_nil]
      exact hlen
    · rw [List.append_nil]
      rfl
  | node :: nodes, kept, rest, hlen, hfits => by
    cases haddr : node.addr with
    | none =>
      have htexts : addrTexts (node :: nodes) = addrTexts nodes := by simp [addrTexts, haddr]
      rw [htexts]
      by_cases hspace : spaceFor kept ≥ pollerAddrListSize - 1
      · -- the check at the start of the round comes before the one of the family
        refine ⟨.noSpace, [], rest, by simp, longest_of_tooLong hfits fun t _ => ?_, ?_, ?_⟩
        · rw [spaceFor_concat]
          omega
        · rw [List.append_nil]
          exact hlen
        · rw [List.append_nil, listNodes, if_pos hspace]
      · obtain ⟨how, more, rest', hhow, hlongest, hlen', heq⟩ := listNodes_eq nodes hlen hfits
        refine ⟨how, more, rest', hhow, hlongest, hlen', ?_⟩
        rw [listNodes, if_neg hspace]
        simp only [haddr]
        exact heq
    | some addr =>
      have htexts : addrTexts (node :: nodes) = addr.text :: addrTexts nodes := by
        simp [addrTexts, haddr]
      rw [htexts]
      rcases Nat.lt_or_ge (pollerAddrListSize - 1) (spaceFor (kept ++ [addr.text])) with hlong | hok
      · obtain ⟨how, hhow, heq⟩ := listNodes_tooLong hntop haddr nodes (trail kept ++ rest) hlong
        refine ⟨how, [], rest, hhow, longest_of_tooLong hfits fun t ht => ?_, ?_, ?_⟩
        · rw [← Option.some.inj ht]
          exact hlong
        · rw [List.append_nil]
          exact hlen
        · rw [List.append_nil]
          exact heq
      · have hlen' : spaceFor (kept ++ [addr.text]) + (rest.drop (addr.text.length + 1)).length =
            pollerAddrListSize := by
          rw [spaceFor_concat, List.length_drop] at *
          unfold pollerAddrListSize at *
          omega
        obtain ⟨how, more, rest', hhow, hlongest, hlen'', heq⟩ := listNodes_eq nodes hlen' hok
        rw [List.append_assoc, List.singleton_append, List.append_assoc, List.singleton_append]
          at hlongest
        rw [List.append_assoc, List.singleton_append] at heq hlen''
        exact ⟨how, addr.text :: more, rest', hhow, hlongest, hlen'',
          (listNodes_fits hntop haddr nodes hlen hok).trans heq⟩

end Loop

/-! ## The list -/

theorem exists_of_mem_addrTexts {nodes : List AddrNode} {t : CString} (h : t ∈ addrTexts nodes) :
    ∃ addr : AddrText, addr.text = t := by
  obtain ⟨node, -, hnode⟩ := List.mem_filterMap.1 h
  obtain ⟨addr, -, htext⟩ := Option.map_eq_some_iff.1 hnode
  exact ⟨addr, htext⟩

/-- No text of a list has a NUL in it. -/
theorem nul_notMem_commaList : ∀ {texts : List CString}, (∀ t ∈ texts, CStrings.nul ∉ t) →
    CStrings.nul ∉ commaList texts
  | [], _ => by simp [commaList]
  | t :: texts, h => by
    obtain ⟨rest, hlist, hrest⟩ := commaList_cons t texts
    have ht : CStrings.nul ∉ t := h t List.mem_cons_self
    have ih : CStrings.nul ∉ commaList texts :=
      nul_notMem_commaList fun t' ht' => h t' (List.mem_cons_of_mem _ ht')
    rw [hlist, List.mem_append]
    rcases hrest with ⟨-, rfl⟩ | rfl
    · simpa using ht
    · have hcomma : CStrings.nul ≠ ',' := by decide
      simp [ht, ih, hcomma]

/-- The loop from the start : the texts it has written, each with a comma, and why it ended. -/
theorem listNodes_start {ntop : InetNtop} (hntop : ntop.Writes) (nodes : List AddrNode) :
    ∃ how kept rest, how ≠ .noComma ∧ Longest kept (addrTexts nodes) ∧
      spaceFor kept + rest.length = pollerAddrListSize ∧
      listNodes ntop nodes (List.replicate pollerAddrListSize CStrings.nul) 0 =
        some (how, trail kept ++ rest, spaceFor kept) := by
  have hstart : spaceFor [] + (List.replicate pollerAddrListSize CStrings.nul).length =
      pollerAddrListSize := by simp [spaceFor]
  obtain ⟨how, kept, rest, hhow, hlongest, hlen, heq⟩ :=
    listNodes_eq hntop nodes hstart (Nat.zero_le _)
  exact ⟨how, kept, rest, hhow, hlongest, hlen, heq⟩

/-- What `get_addr_listing` makes of the texts that are left in the buffer. -/
theorem getAddrListing_eq {ntop : InetNtop} {nodes : List AddrNode} {how : ListingEnd}
    {kept : List CString} {rest : List Char}
    (h : listNodes ntop nodes (List.replicate pollerAddrListSize CStrings.nul) 0 =
      some (how, trail kept ++ rest, spaceFor kept)) :
    getAddrListing ntop nodes = some (how,
      if kept = [] then none else some (commaList kept ++ CStrings.nul :: rest)) := by
  unfold getAddrListing
  simp only [h]
  by_cases hkept : kept = []
  · rw [if_pos hkept, if_pos (by simp [hkept, spaceFor])]
  · have htrail := trail_eq_commaList hkept
    have hspace : spaceFor kept = (commaList kept).length + 1 := by
      rw [← length_trail, htrail, List.length_append, List.length_singleton]
    have hroom : [CStrings.nul].length ≤ (',' :: rest).length := by simp
    have hstore : CStrings.store (commaList kept ++ ',' :: rest) (commaList kept).length _ = _ :=
      CStrings.store_append hroom
    rw [if_neg hkept, if_neg (by omega), hspace, Nat.add_sub_cancel, htrail, List.append_assoc,
      List.singleton_append, hstore]
    simp

/-- At least one text fits. -/
theorem Longest.eq_nil_iff {nodes : List AddrNode} {kept : List CString}
    (h : Longest kept (addrTexts nodes)) : kept = [] ↔ addrTexts nodes = [] := by
  refine ⟨fun hkept => ?_, fun hnodes => List.prefix_nil.1 (hnodes ▸ h.isPrefix)⟩
  by_contra hne
  obtain ⟨t, texts, htexts⟩ := List.exists_cons_of_ne_nil hne
  obtain ⟨addr, rfl⟩ := exists_of_mem_addrTexts (htexts ▸ List.mem_cons_self)
  have hnext := h.next addr.text (by rw [hkept, htexts]; simp)
  have hlen := addr.length_le
  rw [hkept, spaceFor_concat] at hnext
  simp only [spaceFor, List.map_nil, List.sum_nil, pollerAddrListSize] at hnext
  omega

theorem addrTexts_eq_nil_iff {nodes : List AddrNode} :
    addrTexts nodes = [] ↔ ∀ node ∈ nodes, node.addr = none := by
  simp [addrTexts, List.filterMap_eq_nil_iff]

theorem Longest.text_eq {nodes : List AddrNode} {kept : List CString}
    (h : Longest kept (addrTexts nodes)) (rest : List Char) :
    CStrings.text (commaList kept ++ CStrings.nul :: rest) = commaList kept := by
  refine CStrings.text_append_nul (nul_notMem_commaList fun t ht => ?_) _
  obtain ⟨addr, rfl⟩ := exists_of_mem_addrTexts (h.isPrefix.subset ht)
  exact addr.nul

/-- `get_addr_listing` never cuts an address, for every list of nodes and with what is assumed of
`ares_inet_ntop`. No write is outside the buffer; the loop never
leaves without a comma behind the last text, so that the NUL is written over a comma; the result
is NULL if there is no IPv4 or IPv6 node, and otherwise the list of the texts that fit one after
the other. -/
theorem getAddrListing_whole {ntop : InetNtop} (hntop : ntop.Writes) (nodes : List AddrNode) :
    ∃ how buf pos list,
      listNodes ntop nodes (List.replicate pollerAddrListSize CStrings.nul) 0 =
        some (how, buf, pos) ∧
      how ≠ .noComma ∧ (0 < pos → buf[pos - 1]? = some ',') ∧
      getAddrListing ntop nodes = some (how, list) ∧
      (list = none ↔ ∀ node ∈ nodes, node.addr = none) ∧
      ∀ res ∈ list, res.length = pollerAddrListSize ∧ CStrings.nul ∈ res ∧
        ∃ kept, kept ≠ [] ∧ Longest kept (addrTexts nodes) ∧
          CStrings.text res = commaList kept := by
  obtain ⟨how, kept, rest, hhow, hlongest, hlen, hloop⟩ := listNodes_start hntop nodes
  refine ⟨how, _, _, _, hloop, hhow, fun hpos => ?_, getAddrListing_eq hloop, ?_,
    fun res hres => ?_⟩
  · have hkept : kept ≠ [] := by
      rintro rfl
      exact absurd hpos (by simp [spaceFor])
    have htrail := trail_eq_commaList hkept
    rw [← length_trail, htrail, List.length_append, List.length_singleton, Nat.add_sub_cancel,
      List.append_assoc, List.getElem?_append_right (Nat.le_refl _), Nat.sub_self]
    rfl
  · rw [← addrTexts_eq_nil_iff, ← hlongest.eq_nil_iff]
    split_ifs with hkept <;> simp [hkept]
  · by_cases hkept : kept = []
    · rw [if_pos hkept] at hres
      cases hres
    · rw [if_neg hkept] at hres
      cases hres
      refine ⟨?_, by simp, kept, hkept, hlongest, hlongest.text_eq rest⟩
      have htrail := congrArg List.length (trail_eq_commaList hkept)
      rw [length_trail, List.length_append, List.length_singleton] at htrail
      rw [List.length_append, List.length_cons]
      omega

/-- An `ares_inet_ntop` that does what is assumed, and no more. -/
def aresInetNtop : InetNtop := fun addr buf pos size =>
  if addr.text.length + 1 ≤ size then
    (CStrings.store buf pos (addr.text ++ [CStrings.nul])).map fun buf => (true, buf)
  else some (false, buf)

theorem writes_aresInetNtop : aresInetNtop.Writes where
  fits h _ _ := if_pos h
  tooLong h _ _ := if_neg (Nat.not_le.2 h)

/-- The address 255.255.255.255. -/
def broadcastAddr : AddrText where
  text := "255.255.255.255".toList
  ne_nil := by decide
  comma := by decide
  nul := by decide
  length_le := by decide

/-- The address ::1. -/
def loopbackAddr : AddrText where
  text := "::1".toList
  ne_nil := by decide
  comma := by decide
  nul := by decide
  length_le := by decide

/-- Nodes of three families : the list has the two addresses. -/
theorem getAddrListing_whole_mixed :
    ∃ how res, getAddrListing aresInetNtop
        [.other 1, .inet broadcastAddr, .other 1, .inet6 loopbackAddr] = some (how, some res) ∧
      how ≠ .noComma ∧ res.length = pollerAddrListSize ∧
      CStrings.text res = "255.255.255.255,::1".toList ∧
      ∃ kept, kept ≠ [] ∧ Longest kept ["255.255.255.255".toList, "::1".toList] ∧
        CStrings.text res = commaList kept := by
  have htext : (getAddrListing aresInetNtop
      [.other 1, .inet broadcastAddr, .other 1, .inet6 loopbackAddr]).map
        (fun r => r.2.map CStrings.text) = some (some "255.255.255.255,::1".toList) := by
    decide +kernel
  obtain ⟨how, -, -, list, -, hhow, -, hlist, -, hres⟩ := getAddrListing_whole
    writes_aresInetNtop [.other 1, .inet broadcastAddr, .other 1, .inet6 loopbackAddr]
  rw [hlist] at htext
  cases list with
  | none => simp at htext
  | some res =>
    obtain ⟨hlength, -, hkept⟩ := hres res rfl
    exact ⟨how, res, hlist, hhow, hlength, by simpa using htext, hkept⟩

/-! ## The list as `dns_poll_cb` takes it -/

theorem splitOn_commaList {nodes : List AddrNode} {kept : List CString} (hne : kept ≠ [])
    (hkept : kept <+: addrTexts nodes) : (commaList kept).splitOn ',' = kept := by
  refine List.splitOn_intercalate ',' (fun t ht => ?_) hne
  obtain ⟨addr, rfl⟩ := exists_of_mem_addrTexts (hkept.subset ht)
  exact addr.comma

/-- `get_addr_listing` gives `dns_poll_cb` a list of addresses. -/
theorem isAddrList_getAddrListing {ntop : InetNtop} (hntop : ntop.Writes) {nodes : List AddrNode}
    {how : ListingEnd} {buf : List Char}
    (h : getAddrListing ntop nodes = some (how, some buf)) : IsAddrList (CStrings.text buf) := by
  obtain ⟨how', kept, rest, -, hlongest, -, hloop⟩ := listNodes_start hntop nodes
  have heq := h.symm.trans (getAddrListing_eq hloop)
  by_cases hkept : kept = []
  · simp [hkept] at heq
  · rw [if_neg hkept] at heq
    obtain ⟨-, rfl⟩ : how = how' ∧ buf = _ := by simpa using heq
    have htrail := congrArg List.length (trail_eq_commaList hkept)
    rw [length_trail, List.length_append, List.length_singleton] at htrail
    have hfits := hlongest.fits
    rw [hlongest.text_eq]
    refine ⟨?_, nul_notMem_commaList fun t ht => ?_, ?_⟩
    · unfold pollerAddrListSize at hfits
      omega
    · obtain ⟨addr, rfl⟩ := exists_of_mem_addrTexts (hlongest.isPrefix.subset ht)
      exact addr.nul
    · rw [splitOn_commaList hkept hlongest.isPrefix]
      intro t ht
      obtain ⟨addr, rfl⟩ := exists_of_mem_addrTexts (hlongest.isPrefix.subset ht)
      exact addr.ne_nil

/-! ## How many addresses there is room for -/

/-- The result is the list of all IPv4 and IPv6 addresses. -/
def KeepsAll (ntop : InetNtop) (nodes : List AddrNode) : Prop :=
  (getAddrListing ntop nodes).map (fun res => res.2.map CStrings.text) =
    some (if addrTexts nodes = [] then none else some (commaList (addrTexts nodes)))

theorem spaceFor_le_of_isPrefix {kept texts : List CString} (h : kept <+: texts) :
    spaceFor kept ≤ spaceFor texts := by
  obtain ⟨rest, rfl⟩ := h
  simp [spaceFor]

theorem Longest.eq_iff {kept texts : List CString} (h : Longest kept texts) :
    kept = texts ↔ spaceFor texts ≤ pollerAddrListSize - 1 := by
  refine ⟨fun heq => heq ▸ h.fits, fun hspace => ?_⟩
  obtain ⟨rest, hrest⟩ := h.isPrefix
  cases rest with
  | nil => rw [← hrest, List.append_nil]
  | cons t rest =>
    have hnext : kept ++ [t] <+: texts := ⟨rest, by rw [← hrest, List.append_assoc]; rfl⟩
    exact absurd (h.next t hnext) (Nat.not_lt.2 ((spaceFor_le_of_isPrefix hnext).trans hspace))

/-- No address is left out exactly if the texts fit with one byte more for each. -/
theorem keepsAll_iff {ntop : InetNtop} (hntop : ntop.Writes) (nodes : List AddrNode) :
    KeepsAll ntop nodes ↔ spaceFor (addrTexts nodes) ≤ pollerAddrListSize - 1 := by
  obtain ⟨how, kept, rest, -, hlongest, -, hloop⟩ := listNodes_start hntop nodes
  rw [← hlongest.eq_iff, KeepsAll, getAddrListing_eq hloop]
  by_cases hkept : kept = []
  · simp [hkept, hlongest.eq_nil_iff.1 hkept]
  · have hnodes : addrTexts nodes ≠ [] := fun h => hkept (hlongest.eq_nil_iff.2 h)
    simp only [hkept, hnodes, if_false, Option.map_some, hlongest.text_eq, Option.some.injEq]
    refine ⟨fun heq => ?_, congrArg commaList⟩
    rw [← splitOn_commaList hkept hlongest.isPrefix, heq,
      splitOn_commaList hnodes (List.prefix_refl _)]

/-- The lists of which `POLLER_ADDR_LIST_SIZE` says that there is room for them : 64 IPv4 or 25
IPv6 addresses. -/
def WithinCapacity (nodes : List AddrNode) : Prop :=
  (nodes.length ≤ 64 ∧ ∀ node ∈ nodes, ∃ addr, node = .inet addr ∧ addr.text.length ≤ 15) ∨
    (nodes.length ≤ 25 ∧ ∀ node ∈ nodes, ∃ addr, node = .inet6 addr ∧ addr.text.length ≤ 39)

/-- Nodes with texts of at most `bound` characters take at most `bound + 1` bytes each, and that
many only if each text is as long. -/
theorem spaceFor_addrTexts_le {bound : ℕ} : ∀ {nodes : List AddrNode},
    (∀ node ∈ nodes, ∃ addr, node.addr = some addr ∧ addr.text.length ≤ bound) →
    spaceFor (addrTexts nodes) ≤ nodes.length * (bound + 1) ∧
      (spaceFor (addrTexts nodes) = nodes.length * (bound + 1) ↔
        ∀ t ∈ addrTexts nodes, t.length = bound)
  | [], _ => by simp [addrTexts, spaceFor]
  | node :: nodes, h => by
    obtain ⟨ih, ihiff⟩ := spaceFor_addrTexts_le fun node' hn => h node' (List.mem_cons_of_mem _ hn)
    obtain ⟨addr, haddr, hlen⟩ := h node List.mem_cons_self
    have htexts : addrTexts (node :: nodes) = addr.text :: addrTexts nodes := by
      simp [addrTexts, haddr]
    have hspace : spaceFor (addr.text :: addrTexts nodes) =
        (addr.text.length + 1) + spaceFor (addrTexts nodes) := by simp [spaceFor]
    rw [htexts, hspace, List.length_cons, Nat.succ_mul, List.forall_mem_cons, ← ihiff]
    omega

/-- The promise of the header holds but for 64 IPv4 addresses of 15 characters each : the comma
behind the last one has no room besides the NUL that the buffer keeps for itself. -/
theorem addrListing_capacity_iff {ntop : InetNtop} (hntop : ntop.Writes) {nodes : List AddrNode}
    (h : WithinCapacity nodes) :
    KeepsAll ntop nodes ↔ ¬(nodes.length = 64 ∧ ∀ t ∈ addrTexts nodes, t.length = 15) := by
  rw [keepsAll_iff hntop]
  unfold pollerAddrListSize
  rcases h with ⟨hlen, hnodes⟩ | ⟨hlen, hnodes⟩
  · have haddrs : ∀ node ∈ nodes, ∃ addr, node.addr = some addr ∧ addr.text.length ≤ 15 := by
      intro node hn
      obtain ⟨addr, rfl, hlen⟩ := hnodes node hn
      exact ⟨addr, rfl, hlen⟩
    obtain ⟨hle, hiff⟩ := spaceFor_addrTexts_le haddrs
    rw [← hiff]
    omega
  · have haddrs : ∀ node ∈ nodes, ∃ addr, node.addr = some addr ∧ addr.text.length ≤ 39 := by
      intro node hn
      obtain ⟨addr, rfl, hlen⟩ := hnodes node hn
      exact ⟨addr, rfl, hlen⟩
    have hle := (spaceFor_addrTexts_le haddrs).1
    omega

theorem addrListing_capacity_two :
    WithinCapacity [.inet broadcastAddr, .inet broadcastAddr] ∧
      KeepsAll aresInetNtop [.inet broadcastAddr, .inet broadcastAddr] := by
  have hwithin : WithinCapacity [.inet broadcastAddr, .inet broadcastAddr] :=
    Or.inl ⟨by simp, fun node hn => ⟨broadcastAddr, by simpa using hn, by decide⟩⟩
  exact ⟨hwithin, (addrListing_capacity_iff writes_aresInetNtop hwithin).2 (by simp)⟩

/-- With 64 addresses of 15 characters the last one is left out. -/
theorem addrListing_capacity_full :
    WithinCapacity (List.replicate 64 (.inet broadcastAddr)) ∧
      ¬KeepsAll aresInetNtop (List.replicate 64 (.inet broadcastAddr)) := by
  refine ⟨Or.inl ⟨by simp, fun node hnode => ?_⟩, ?_⟩
  · exact ⟨broadcastAddr, List.eq_of_mem_replicate hnode, by decide⟩
  · rw [keepsAll_iff writes_aresInetNtop]
    decide +kernel

end HttpsDnsProxy

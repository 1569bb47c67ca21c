import HttpsDnsProxy.Bootstrap

/-!
# Whether an address has disappeared

`addr_list_reduced` looks for each address of the old list in the new one with `strstr`, and
takes it for missing unless the first place it finds is a whole element. Addresses are often
parts of one another : if a longer one with the address in it comes first, the address is taken
for missing although it is there.

* `addrListReduced_eq_false` : the list is not reduced if each of its addresses is found as a
  whole element;
* `found_iff` : an address is found so if it is in the list and no element before it has it
  inside.

`decidesInclusion_iff` : what `addr_list_reduced` says is whether an address is gone, exactly if
this order does not get in the way.
-/

namespace HttpsDnsProxy

/-- A text as the elements of a list of addresses are. -/
structure IsAddrText (ip : CString) : Prop where
  ne_nil : ip ≠ []
  comma : ',' ∉ ip
  length_lt : ip.length < 50

instance (ip : CString) : Decidable (IsAddrText ip) :=
  decidable_of_iff (ip ≠ [] ∧ ',' ∉ ip ∧ ip.length < 50)
    ⟨fun h => ⟨h.1, h.2.1, h.2.2⟩, fun h => ⟨h.ne_nil, h.comma, h.length_lt⟩⟩

/-- The addresses with commas between them. -/
def commaList (ips : List CString) : CString :=
  [','].intercalate ips

theorem commaList_cons (ip : CString) (ips : List CString) :
    ∃ rest, commaList (ip :: ips) = ip ++ rest ∧
      (ips = [] ∧ rest = [] ∨ rest = ',' :: commaList ips) := by
  cases ips with
  | nil => exact ⟨[], by rw [commaList, List.intercalate_singleton, List.append_nil], by simp⟩
  | cons ip' ips =>
    refine ⟨',' :: commaList (ip' :: ips), ?_, Or.inr rfl⟩
    rw [commaList, List.intercalate_cons_cons, List.append_assoc]
    rfl

/-- The test of `addr_list_reduced` for one address : the first place in the full list where its
text occurs is a whole element. -/
def found (fullList ip : CString) : Bool :=
  match CStrings.strstr ip fullList with
  | none => false
  | some k =>
    (k = 0 ∨ fullList[k - 1]? = some ',') ∧
      (fullList[k + ip.length]? = some ',' ∨ fullList[k + ip.length]? = none)

/-! ## The loop -/

/-- One round of the loop. -/
theorem addrListReducedFrom_cons {fullList ip : CString} (hip : IsAddrText ip)
    (ips : List CString) (n : ℕ) :
    addrListReducedFrom fullList (n + 1) (commaList (ip :: ips)) =
      if found fullList ip then addrListReducedFrom fullList n (commaList ips) else true := by
  obtain ⟨rest, hlist, hrest⟩ := commaList_cons ip ips
  have hne : ip ++ rest ≠ [] := by simp [hip.ne_nil]
  have hlen : (CStrings.strchr (ip ++ rest) ',').getD (ip ++ rest).length = ip.length := by
    rcases hrest with ⟨-, rfl⟩ | rfl
    · rw [List.append_nil, CStrings.strchr_of_notMem hip.comma, Option.getD_none]
    · rw [CStrings.strchr_append_cons hip.comma, Option.getD_some]
  have hdrop : (ip ++ rest).drop (ip.length + 1) = commaList ips := by
    rcases hrest with ⟨rfl, rfl⟩ | rfl
    · simp [commaList]
    · simp
  rw [hlist, addrListReducedFrom.eq_3 _ _ _ hne]
  simp only [hlen, List.take_left, hdrop]
  rw [if_neg (Nat.not_le.2 hip.length_lt)]
  unfold found
  cases CStrings.strstr ip fullList with
  | none => rfl
  | some k => simp only [← not_and_or, ite_not, decide_eq_true_eq]

/-- The loop finds nothing missing if it finds each address. -/
theorem addrListReducedFrom_eq_false (fullList : CString) :
    ∀ {n : ℕ} {ips : List CString}, (∀ ip ∈ ips, IsAddrText ip) → ips.length < n →
      (addrListReducedFrom fullList n (commaList ips) = false ↔
        ∀ ip ∈ ips, found fullList ip = true)
  | 0, _, _, hn => absurd hn (Nat.not_lt_zero _)
  | n + 1, [], _, _ => by simp [commaList, addrListReducedFrom]
  | n + 1, ip :: ips, hips, hn => by
    have hrest := addrListReducedFrom_eq_false fullList
      (fun ip' h => hips ip' (List.mem_cons_of_mem _ h)) (Nat.lt_of_succ_lt_succ hn)
    rw [addrListReducedFrom_cons (hips ip (List.mem_cons_self ..)), List.forall_mem_cons, ← hrest]
    by_cases hfound : found fullList ip = true
    · rw [if_pos hfound]
      exact (and_iff_right hfound).symm
    · rw [if_neg hfound]
      exact iff_of_false Bool.noConfusion fun h => hfound h.1

theorem length_le_commaList :
    ∀ {ips : List CString}, (∀ ip ∈ ips, IsAddrText ip) → ips.length ≤ (commaList ips).length
  | [], _ => Nat.zero_le _
  | ip :: ips, hips => by
    have hrest := length_le_commaList fun ip' h => hips ip' (List.mem_cons_of_mem _ h)
    have hpos := List.length_pos_of_ne_nil (hips ip (List.mem_cons_self ..)).ne_nil
    obtain ⟨rest, hlist, ⟨rfl, rfl⟩ | rfl⟩ := commaList_cons ip ips
    · rw [hlist, List.append_nil, List.length_singleton]
      exact hpos
    · rw [hlist, List.length_append, List.length_cons, List.length_cons]
      omega

/-- `addr_list_reduced` finds nothing missing if it finds each address. -/
theorem addrListReduced_eq_false (fullList : CString) {ips : List CString}
    (hips : ∀ ip ∈ ips, IsAddrText ip) :
    addrListReduced fullList (commaList ips) = false ↔ ∀ ip ∈ ips, found fullList ip = true :=
  addrListReducedFrom_eq_false fullList hips (Nat.lt_succ_of_le (length_le_commaList hips))

/-! ## The first place -/

/-- The test at a known place : a comma or an end on either side. -/
theorem found_eq_true_iff {before ip after : CString}
    (h : CStrings.strstr ip (before ++ ip ++ after) = some before.length) :
    found (before ++ ip ++ after) ip = true ↔
      (∀ c ∈ before.getLast?, c = ',') ∧ ∀ c ∈ after.head?, c = ',' := by
  have hend : (before ++ ip ++ after)[before.length + ip.length]? = after.head? := by
    rw [List.getElem?_append_right (by simp), List.head?_eq_getElem?]
    simp
  have hbegin : before.length = 0 ∨ (before ++ ip ++ after)[before.length - 1]? = some ',' ↔
      ∀ c ∈ before.getLast?, c = ',' := by
    rcases List.eq_nil_or_concat before with rfl | ⟨t, a, rfl⟩
    · simp
    · simp [List.append_assoc]
  unfold found
  rw [h]
  simp only [decide_eq_true_eq, hend, hbegin]
  refine and_congr_right fun _ => ?_
  cases after.head? <;> simp

/-- An element that has the address inside settles the test : it has to be the address. -/
theorem found_of_isInfix {e ip rest : CString} (he : ',' ∉ e) (hrest : ∀ c ∈ rest.head?, c = ',')
    (h : ip <:+: e) : found (e ++ rest) ip = true ↔ ip = e := by
  obtain ⟨k, hk⟩ := CStrings.exists_strstr h
  obtain ⟨before, after, rfl, rfl⟩ := CStrings.strstr_eq_some hk
  have hfirst := CStrings.strstr_append_of_eq_some rest hk
  rw [List.append_assoc] at hfirst ⊢
  rw [found_eq_true_iff hfirst]
  constructor
  · rintro ⟨hbegin, hend⟩
    have hbefore : before = [] := by
      rcases List.eq_nil_or_concat before with rfl | ⟨t, a, rfl⟩
      · rfl
      · exact absurd (hbegin a (by simp)) fun ha => he (by simp [ha])
    have hafter : after = [] := by
      cases after with
      | nil => rfl
      | cons a t => exact absurd (hend a (by simp)) fun ha => he (by simp [ha])
    rw [hbefore, hafter, List.nil_append, List.append_nil]
  · intro heq
    have hlen := congrArg List.length heq
    rw [List.length_append, List.length_append] at hlen
    obtain rfl : before = [] := List.length_eq_zero_iff.1 (by omega)
    obtain rfl : after = [] := List.length_eq_zero_iff.1 (by omega)
    exact ⟨by simp, hrest⟩

/-- An element without the address inside is skipped. -/
theorem found_append_cons {e ip rest : CString} (hcomma : ',' ∉ ip) (h : ¬ip <:+: e) :
    found (e ++ ',' :: rest) ip = found rest ip := by
  have hskip : CStrings.strstr ip (e ++ ',' :: rest) =
      (CStrings.strstr ip rest).map (· + (e.length + 1)) := CStrings.strstr_append_cons hcomma h
  cases hk : CStrings.strstr ip rest with
  | none => simp [found, hskip, hk]
  | some k =>
    obtain ⟨before, after, rfl, rfl⟩ := CStrings.strstr_eq_some hk
    have hplace : e ++ ',' :: (before ++ ip ++ after) = (e ++ ',' :: before) ++ ip ++ after := by
      simp
    have hlast : (∀ c ∈ (e ++ ',' :: before).getLast?, c = ',') ↔
        ∀ c ∈ before.getLast?, c = ',' := by
      rcases List.eq_nil_or_concat before with rfl | ⟨t, a, rfl⟩
      · simp
      · rw [List.concat_eq_append, ← List.cons_append, ← List.append_assoc,
          List.getLast?_concat, List.getLast?_concat]
    have hfirst : CStrings.strstr ip ((e ++ ',' :: before) ++ ip ++ after) =
        some (e ++ ',' :: before).length := by
      rw [← hplace, hskip, hk, Option.map_some, List.length_append, List.length_cons]
      congr 1
      omega
    rw [hplace, Bool.eq_iff_iff, found_eq_true_iff hk, found_eq_true_iff hfirst, hlast]

/-- No element before the first one that is `ip` has `ip` inside. -/
def Unshadowed (fulls : List CString) (ip : CString) : Prop :=
  ∀ e ∈ fulls.takeWhile (· ≠ ip), ¬ip <:+: e

instance (fulls : List CString) (ip : CString) : Decidable (Unshadowed fulls ip) :=
  inferInstanceAs (Decidable (∀ e ∈ fulls.takeWhile (· ≠ ip), ¬ip <:+: e))

/-- An address is found as a whole element if it is one and comes before every other element that
has it inside. -/
theorem found_iff {ip : CString} (hip : IsAddrText ip) :
    ∀ {fulls : List CString}, (∀ e ∈ fulls, IsAddrText e) →
      (found (commaList fulls) ip = true ↔ ip ∈ fulls ∧ Unshadowed fulls ip)
  | [], _ => by
    have hnone : CStrings.strstr ip [] = none :=
      CStrings.strstr_eq_none fun h => hip.ne_nil (List.infix_nil.1 h)
    simp [commaList, found, hnone]
  | e :: es, hfulls => by
    have ih := found_iff hip fun e' h => hfulls e' (List.mem_cons_of_mem _ h)
    have he : ',' ∉ e := (hfulls e (List.mem_cons_self ..)).comma
    obtain ⟨rest, hlist, hrest⟩ := commaList_cons e es
    have hhead : ∀ c ∈ rest.head?, c = ',' := by
      rcases hrest with ⟨-, rfl⟩ | rfl <;> simp
    rw [hlist]
    by_cases hinfix : ip <:+: e
    · rw [found_of_isInfix he hhead hinfix]
      constructor
      · rintro rfl
        simp [Unshadowed]
      · rintro ⟨-, hun⟩
        by_contra hne
        exact hun e (by simp [Ne.symm hne]) hinfix
    · have hne : e ≠ ip := by
        rintro rfl
        exact hinfix List.infix_rfl
      have hskip : found (e ++ rest) ip = found (commaList es) ip := by
        rcases hrest with ⟨rfl, rfl⟩ | rfl
        · have hnone : CStrings.strstr ip [] = none :=
            CStrings.strstr_eq_none fun h => hip.ne_nil (List.infix_nil.1 h)
          simp [found, commaList, CStrings.strstr_eq_none hinfix, hnone]
        · exact found_append_cons hip.comma hinfix
      rw [hskip, ih]
      simp [Unshadowed, hne, hinfix, Ne.symm hne]

/-! ## Inclusion -/

/-- `addr_list_reduced` returns 0 if and only if every address of the list is one of the full
list, so that `dns_poll_cb` stores a new list and resets the client exactly if one is gone. -/
structure DecidesInclusion (fulls ips : List CString) : Prop where
  reduced : addrListReduced (commaList fulls) (commaList ips) = false ↔ ∀ ip ∈ ips, ip ∈ fulls
  poll : ∀ (env : Environment) (s : Proxy) (hostname : CString) (block : ℕ),
    IsHostname hostname → s.hostname.length ≤ 254 →
    s.resolv = some ⟨block, resolvEntry hostname (commaList ips)⟩ →
    s.dnsPollCb env (commaList fulls) =
      if ∀ ip ∈ ips, ip ∈ fulls then s else s.newResolv env (commaList fulls)

/-- The poll follows from the function. -/
theorem DecidesInclusion.of_reduced {fulls ips : List CString}
    (h : addrListReduced (commaList fulls) (commaList ips) = false ↔ ∀ ip ∈ ips, ip ∈ fulls) :
    DecidesInclusion fulls ips where
  reduced := h
  poll env s hostname block hhost hlen hresolv := by
    have hdrop : (resolvEntry hostname (commaList ips)).drop (hostname.length + port443.length) =
        commaList ips := by
      rw [resolvEntry, ← List.length_append, List.drop_left]
    have hkeeps : s.keepsResolv (commaList fulls) = true ↔ ∀ ip ∈ ips, ip ∈ fulls := by
      rw [← h, Proxy.keepsResolv, hresolv]
      simp only [strstr_resolvEntry hhost, hdrop, Bool.not_eq_true']
    rw [Proxy.dnsPollCb_eq, if_neg (Nat.not_lt.2 hlen)]
    exact if_congr hkeeps rfl rfl

/-- For all lists of addresses : `addr_list_reduced` decides whether each address of the list is
one of the full list, exactly if one is not, or in the full list no element before the first
equal one has it inside. -/
theorem decidesInclusion_iff (fulls ips : List CString) (hfulls : ∀ e ∈ fulls, IsAddrText e)
    (hips : ∀ ip ∈ ips, IsAddrText ip) :
    DecidesInclusion fulls ips ↔
      ((∀ ip ∈ ips, ip ∈ fulls) → ∀ ip ∈ ips, Unshadowed fulls ip) := by
  have hreduced : addrListReduced (commaList fulls) (commaList ips) = false ↔
      ∀ ip ∈ ips, ip ∈ fulls ∧ Unshadowed fulls ip := by
    rw [addrListReduced_eq_false _ hips]
    exact forall₂_congr fun ip hip => found_iff (hips ip hip) hfulls
  constructor
  · intro h hall ip hip
    exact (hreduced.1 (h.reduced.2 hall) ip hip).2
  · intro h
    refine .of_reduced (hreduced.trans ?_)
    exact ⟨fun hboth ip hip => (hboth ip hip).1, fun hall ip hip => ⟨hall ip hip, h hall ip hip⟩⟩

/-- Two addresses that are not parts of one another. -/
theorem decidesInclusion_two :
    DecidesInclusion ["8.8.4.4".toList, "8.8.8.8".toList] ["8.8.8.8".toList] :=
  (decidesInclusion_iff _ _ (by decide) (by decide)).2 fun _ => by decide

/-- `1.1.1.1` is in the full list, behind `11.1.1.1`, and is taken for missing. -/
theorem decidesInclusion_shadowed :
    addrListReduced "11.1.1.1,1.1.1.1".toList "1.1.1.1".toList = true ∧
      commaList ["11.1.1.1".toList, "1.1.1.1".toList] = "11.1.1.1,1.1.1.1".toList ∧
      ¬DecidesInclusion ["11.1.1.1".toList, "1.1.1.1".toList] ["1.1.1.1".toList] := by
  refine ⟨by decide, by decide, fun h => ?_⟩
  exact absurd (h.reduced.2 (by simp)) (by decide)

end HttpsDnsProxy

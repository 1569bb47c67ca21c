import HttpsDnsProxy.TcpRuns

/-!
# The client table over whole runs

`Table` is what holds of the table between events until the server is stopped : the
count is the length of the list and within the limit, every listed client has its
watchers active, and the accept watcher is active exactly below the limit. Each change
the server makes keeps it (`Table.removeClient`, `Table.acceptCb`, …), so it holds after
every run without a `stop` and the list stays empty after one (`run_table`).

A client's id is its place in the order of accepts modulo `2 ^ 64`, so two listed clients
share an id only when `2 ^ 64` connections were accepted from one to the other
(`clientTable_ids_collide`).
-/

namespace HttpsDnsProxy

open Bytes

/-! ## The table -/

/-- What holds of the table between events, until the server is stopped. -/
structure Table (d : DnsServerTcp) : Prop where
  blocks : Blocks d
  limit_pos : 1 ≤ d.clientLimit
  limit_le : d.clientLimit ≤ 200
  count : d.clientCount = d.clients.length
  le_limit : d.clients.length ≤ d.clientLimit
  accepting : d.acceptWatcher = true ↔ d.clients.length < d.clientLimit
  clientId : d.clientId = d.nextBlock % 2 ^ 64
  ids : ∀ c ∈ d.clients, c.id = (c.block + 1) % 2 ^ 64
  watchers : ∀ c ∈ d.clients, c.readWatcher = true ∧ c.timerWatcher = true

namespace Table

variable {d : DnsServerTcp}

/-- Changing listed structs in place keeps the table if ids and watchers are kept. -/
theorem map (h : Table d) (f : TcpClient → TcpClient) (hb : ∀ c, (f c).block = c.block)
    (hid : ∀ c ∈ d.clients, (f c).id = c.id)
    (hw : ∀ c ∈ d.clients, (f c).readWatcher = true ∧ (f c).timerWatcher = true) :
    Table { d with clients := d.clients.map f } where
  blocks := h.blocks.of_sublist rfl (by simp [Function.comp_def, hb])
  limit_pos := h.limit_pos
  limit_le := h.limit_le
  count := by simpa using h.count
  le_limit := by simpa using h.le_limit
  accepting := by simpa using h.accepting
  clientId := h.clientId
  ids := by
    intro x hx
    obtain ⟨c, hc, rfl⟩ := List.mem_map.1 hx
    rw [hid c hc, hb, h.ids c hc]
  watchers := by
    intro x hx
    obtain ⟨c, hc, rfl⟩ := List.mem_map.1 hx
    exact hw c hc

theorem input (h : Table d) {block : ℕ} {c : TcpClient} (hc : d.find block = some c) (m : Mem)
    (n k : ℕ) : Table (d.update (c.withInput m n k)) := by
  obtain ⟨hmem, -⟩ := DnsServerTcp.find_eq_some hc
  refine h.map _ (fun x => ?_) (fun x hx => ?_) fun x hx => ?_
  · split_ifs with hb
    · exact hb.symm
    · rfl
  · split_ifs with hb
    · have hx' := h.ids x hx
      have hc' := h.ids c hmem
      rw [hx', show x.block = c.block from hb, ← hc']
      rfl
    · rfl
  · split_ifs
    · exact h.watchers c hmem
    · exact h.watchers x hx

theorem again (h : Table d) (block : ℕ) : Table (d.timerAgain block) := by
  refine h.map _ (fun x => ?_) (fun x hx => ?_) fun x hx => ?_
  · split_ifs <;> rfl
  · split_ifs <;> rfl
  · split_ifs
    · exact ⟨(h.watchers x hx).1, rfl⟩
    · exact h.watchers x hx

theorem removeClient (h : Table d) {block : ℕ} {c : TcpClient} (hc : d.find block = some c) :
    Table (d.removeClient block) := by
  obtain ⟨hmem, rfl⟩ := DnsServerTcp.find_eq_some hc
  have hsub : (d.removeClient c.block).clients.Sublist d.clients := by
    rw [DnsServerTcp.clients_removeClient]
    exact List.eraseP_sublist
  have hlen : (d.removeClient c.block).clients.length + 1 = d.clients.length := by
    obtain ⟨pre, post, hd, hr⟩ := h.blocks.removeClient_eq hmem
    rw [hd, hr]
    simp
    omega
  have hlimit := h.limit_le
  have hle := h.le_limit
  have hcount : (d.removeClient c.block).clientCount = d.clientCount - 1 :=
    wrapSub_of_le (by rw [h.count]; omega) (by rw [h.count]; omega)
  exact {
    blocks := Blocks.kept.remove d c.block c hc h.blocks
    limit_pos := h.limit_pos
    limit_le := h.limit_le
    count := by rw [hcount, h.count]; omega
    le_limit := by
      show (d.removeClient c.block).clients.length ≤ d.clientLimit
      omega
    accepting := by
      show (if d.clientCount = d.clientLimit then true else d.acceptWatcher) = true ↔
        (d.removeClient c.block).clients.length < d.clientLimit
      have hacc := h.accepting
      rw [h.count]
      split_ifs with hfull
      · simp only [true_iff]
        omega
      · rw [hacc]
        omega
    clientId := h.clientId
    ids := fun x hx => h.ids x (hsub.subset hx)
    watchers := fun x hx => h.watchers x (hsub.subset hx) }

theorem kept : KeptByServer Table where
  input _ _ _ m n k hc h := h.input hc m n k
  again _ block _ _ h := h.again block
  remove _ _ _ hc h := h.removeClient hc

/-- Below the limit a connection is added, and at the limit accepting is suspended. -/
theorem acceptCb (h : Table d) (hw : d.acceptWatcher = true) (fd : ℕ) (addr : SockAddr) :
    Table (d.acceptCb (.sock fd addr)) := by
  have hlt := h.accepting.1 hw
  have hlimit := h.limit_le
  have hcount : (d.clientCount + 1) % 2 ^ 16 = d.clients.length + 1 := by
    rw [h.count]
    omega
  have hid : (d.clientId + 1) % 2 ^ 64 = (d.nextBlock + 1) % 2 ^ 64 := by
    rw [h.clientId]
    omega
  exact {
    blocks := h.blocks.acceptCb _
    limit_pos := h.limit_pos
    limit_le := h.limit_le
    count := hcount
    le_limit := hlt
    accepting := by
      show (if (d.clientCount + 1) % 2 ^ 16 = d.clientLimit then false else d.acceptWatcher) =
        true ↔ d.clients.length + 1 < d.clientLimit
      rw [hcount, hw]
      split_ifs with hfull
      · simp only [false_iff]
        omega
      · simp only [true_iff]
        omega
    clientId := hid
    ids := by
      intro c hc
      rcases List.mem_cons.1 hc with rfl | hc
      · exact hid
      · exact h.ids c hc
    watchers := by
      intro c hc
      rcases List.mem_cons.1 hc with rfl | hc
      · exact ⟨rfl, rfl⟩
      · exact h.watchers c hc }

/-- Listed clients with one id are `2 ^ 64` accepts apart. -/
theorem ids_pairwise (h : Table d) :
    d.clients.Pairwise fun c c' => c.id = c'.id → c'.block + 2 ^ 64 ≤ c.block := by
  have hnew := List.pairwise_map.1 h.blocks.newest
  refine hnew.imp_of_mem fun {c c'} hc hc' hgt hid => ?_
  rw [h.ids c hc, h.ids c' hc'] at hid
  omega

theorem dnsServerTcpCreate {limit : ℕ} (hpos : 1 ≤ limit) (hle : limit ≤ 200) :
    Table (dnsServerTcpCreate limit) where
  blocks := ⟨List.Pairwise.nil, fun _ hc => (List.not_mem_nil hc).elim⟩
  limit_pos := hpos
  limit_le := hle
  count := rfl
  le_limit := Nat.zero_le _
  accepting := ⟨fun _ => hpos, fun _ => rfl⟩
  clientId := rfl
  ids := fun _ hc => (List.not_mem_nil hc).elim
  watchers := fun _ hc => (List.not_mem_nil hc).elim

end Table

/-! ## After `dns_server_tcp_stop` -/

/-- No client is listed and none can come. -/
structure Closed (d : DnsServerTcp) : Prop where
  clients : d.clients = []
  count : d.clientCount = 0
  accepting : d.acceptWatcher = false

theorem Table.stop {d : DnsServerTcp} (h : Table d) : Closed d.dnsServerTcpStop where
  clients := DnsServerTcp.clients_dnsServerTcpStop
  count := by
    have hr := (Table.kept.removeClients d.clients.length d h).count
    rwa [DnsServerTcp.clients_removeClients _ d le_rfl] at hr
  accepting := rfl

namespace Closed

theorem find_ne {d : DnsServerTcp} (h : Closed d) (block : ℕ) (c : TcpClient) :
    d.find block ≠ some c := by
  simp [DnsServerTcp.find, h.clients]

theorem step {s s' : TcpRun} {e : TcpEvent} (hs : TcpStep s e s') (h : Closed s.server) :
    Closed s'.server := by
  cases hs with
  | idle => exact h
  | accept r hw => exact absurd (h.accepting ▸ hw) (by simp)
  | read block rounds res c hc => exact (h.find_ne block c hc).elim
  | timeout block c hc => exact (h.find_ne block c hc).elim
  | respond raddr resp sends =>
    rcases s.server.dnsServerTcpRespond_cases raddr resp sends with hd | ⟨c, hl, -⟩
    · simpa only [hd] using h
    · simp [DnsServerTcp.lookup, h.clients] at hl
  | stop _ =>
    refine ⟨DnsServerTcp.clients_dnsServerTcpStop, ?_, rfl⟩
    simp [DnsServerTcp.dnsServerTcpStop, h.clients, DnsServerTcp.removeClients, h.count]

theorem run {s : TcpRun} (h : Closed s.server) (es : List TcpEvent) :
    Closed (Runs.run TcpRun.step s es).server :=
  Runs.invariant (P := fun s : TcpRun => Closed s.server) (fun s e => step (s.tcpStep e)) es h

end Closed

/-! ## Every run -/

/-- The event is not a failed `accept`. -/
def TcpEvent.Accepts : TcpEvent → Prop
  | .accept (.error _ _) => False
  | _ => True

/-- One event keeps the table, or stops the server. -/
theorem Table.step {s s' : TcpRun} {e : TcpEvent} (hs : TcpStep s e s') (he : e.Accepts)
    (h : Table s.server) :
    Table s'.server ∨ (e = .stop ∧ s.halted = false ∧ Closed s'.server) := by
  cases hs with
  | idle => exact Or.inl h
  | accept r hw =>
    cases r with
    | sock fd addr => exact Or.inl (h.acceptCb hw fd addr)
    | error e stack => exact he.elim
  | read block rounds res c _ => exact Or.inl (Table.kept.readEvent s block rounds res h)
  | timeout block c hc => exact Or.inl (h.removeClient hc)
  | respond raddr resp sends => exact Or.inl (Table.kept.respond _ raddr resp sends h)
  | stop hh => exact Or.inr ⟨rfl, hh, h.stop⟩

theorem run_table {limit : ℕ} (hpos : 1 ≤ limit) (hle : limit ≤ 200) (es : List TcpEvent)
    (hes : ∀ e ∈ es, e.Accepts) :
    (.stop ∉ es → Table (TcpRun.run limit es).server) ∧
      (Table (TcpRun.run limit es).server ∨ Closed (TcpRun.run limit es).server) := by
  induction es using List.reverseRecOn with
  | nil =>
    have h0 := Table.dnsServerTcpCreate hpos hle
    exact ⟨fun _ => h0, Or.inl h0⟩
  | append_singleton es e ih =>
    obtain ⟨hopen, hany⟩ := ih fun x hx => hes x (by simp [hx])
    have hs := (TcpRun.run limit es).tcpStep e
    have he := hes e (by simp)
    have hrun : TcpRun.run limit (es ++ [e]) = (TcpRun.run limit es).step e :=
      Runs.run_concat _ _ _ _
    rw [hrun]
    constructor
    · intro hstop
      simp only [List.mem_append, List.mem_singleton, not_or] at hstop
      rcases (hopen hstop.1).step hs he with h | ⟨rfl, -⟩
      · exact h
      · exact (hstop.2 rfl).elim
    · rcases hany with h | h
      · rcases h.step hs he with h | ⟨-, -, h⟩
        · exact Or.inl h
        · exact Or.inr h
      · exact Or.inr (h.step hs)

/-- The client limit never changes. -/
theorem clientLimit_run (limit : ℕ) (es : List TcpEvent) :
    (TcpRun.run limit es).server.clientLimit = limit := by
  have hkept : KeptByServer fun d => d.clientLimit = limit :=
    { input := fun _ _ _ _ _ _ _ h => h
      again := fun _ _ _ _ h => h
      remove := fun _ _ _ _ h => h }
  refine Runs.invariant (P := fun s : TcpRun => s.server.clientLimit = limit)
    (fun s e h => hkept.step (fun _ h => h) (s.tcpStep e) (fun r _ _ => ?_) h) es rfl
  cases r with
  | sock fd addr => exact h
  | error e stack =>
    rw [DnsServerTcp.acceptCb]
    split_ifs
    · exact h
    · exact h

/-- The client table over every run of successful accepts, reads, timeouts, responses and
stops. The count is the length of the list and within the limit. Clients with one id are
`2 ^ 64` accepts apart. Every listed client has both watchers active. Before a stop the
server accepts exactly below the limit, and after one the list is empty and stays so.
Removing a client takes out that client and keeps the order of the others. -/
theorem clientTable (limit : ℕ) (hpos : 1 ≤ limit) (hle : limit ≤ 200) (es : List TcpEvent)
    (hes : ∀ e ∈ es, e.Accepts) :
    let d := (TcpRun.run limit es).server
    d.clientCount = d.clients.length ∧ d.clientCount ≤ limit ∧
      (d.clients.Pairwise fun c c' => c.id = c'.id → c'.block + 2 ^ 64 ≤ c.block) ∧
      (∀ c ∈ d.clients, c.readWatcher = true ∧ c.timerWatcher = true) ∧
      (.stop ∉ es → (d.acceptWatcher = true ↔ d.clientCount < limit)) ∧
      (∀ c ∈ d.clients, ∃ pre post, d.clients = pre ++ c :: post ∧
        (d.removeClient c.block).clients = pre ++ post) ∧
      (∀ pre post, es = pre ++ .stop :: post → (TcpRun.run limit pre).halted = false →
        d.clients = [] ∧ d.acceptWatcher = false) := by
  intro d
  have hlimit : d.clientLimit = limit := clientLimit_run limit es
  obtain ⟨hopen, hany⟩ := run_table hpos hle es hes
  have hblocks : Blocks d := Blocks.run limit es
  refine ⟨?_, ?_, ?_, ?_, ?_, fun c hc => hblocks.removeClient_eq hc, ?_⟩
  · rcases hany with h | h
    · exact h.count
    · rw [h.count, h.clients, List.length_nil]
  · rcases hany with h | h
    · exact hlimit ▸ h.count.trans_le h.le_limit
    · rw [h.count]
      exact Nat.zero_le _
  · rcases hany with h | h
    · exact h.ids_pairwise
    · rw [h.clients]
      exact List.Pairwise.nil
  · rcases hany with h | h
    · exact h.watchers
    · simp [d, h.clients]
  · intro hstop
    have h := hopen hstop
    have hacc := h.accepting
    rwa [← h.count, show (TcpRun.run limit es).server.clientLimit = limit from hlimit] at hacc
  · rintro pre post rfl hrunning
    have hpre := (run_table hpos hle pre fun e he => hes e (by simp [he])).2
    have hclosed : Closed (TcpRun.run limit (pre ++ [.stop])).server := by
      have hs : TcpRun.run limit (pre ++ [.stop]) =
          { TcpRun.run limit pre with
            server := (TcpRun.run limit pre).server.dnsServerTcpStop } := by
        rw [TcpRun.run, Runs.run_concat]
        exact if_neg (by simpa [TcpRun.run] using hrunning)
      rw [hs]
      rcases hpre with h | h
      · exact h.stop
      · exact h.step (TcpStep.stop hrunning)
    have hd : TcpRun.run limit (pre ++ .stop :: post) =
        Runs.run TcpRun.step (TcpRun.run limit (pre ++ [.stop])) post := by
      rw [TcpRun.run, ← List.singleton_append, ← List.append_assoc, Runs.run_append]
      rfl
    have hend := hclosed.run post
    rw [← hd] at hend
    exact ⟨hend.clients, hend.accepting⟩

/-- A server with room for one client, one connection accepted, then closed down. -/
theorem clientTable_accept_stop :
    (TcpRun.run 1 [.accept (.sock 7 []), .stop]).server.clients = [] :=
  ((clientTable 1 (by decide) (by decide) [.accept (.sock 7 []), .stop]
    (by simp [TcpEvent.Accepts])).2.2.2.2.2.2 [.accept (.sock 7 [])] [] rfl rfl).1

/-! ## Ids come round -/

/-- `n` connections accepted and timed out one after the other, blocks counted from 1. -/
def churn (n : ℕ) : List TcpEvent :=
  (List.range n).flatMap fun i => [.accept (.sock 8 []), .timeout (i + 1)]

/-- The client the first accept makes. -/
def firstClient : TcpClient where
  block := 0
  id := 1
  sock := 7
  raddr := []
  addrLen := 0
  inputBuffer := fun _ => 0
  inputBufferSize := 0
  inputBufferUsed := 0
  readWatcher := true
  timerWatcher := true

/-- A server of two places with the first client listed, after `n` further clients. -/
def afterChurn (n : ℕ) : TcpRun where
  server :=
    { acceptWatcher := true
      clientId := (1 + n) % 2 ^ 64
      clientCount := 1
      clientLimit := 2
      clients := [firstClient]
      nextBlock := 1 + n }
  delivered := []
  sent := []
  halted := false

theorem run_churn (n : ℕ) :
    TcpRun.run 2 (.accept (.sock 7 []) :: churn n) = afterChurn n := by
  induction n with
  | zero => rfl
  | succ n ih =>
    have hchurn : churn (n + 1) = churn n ++ [.accept (.sock 8 []), .timeout (n + 1)] := by
      simp [churn, List.range_succ]
    rw [hchurn, ← List.cons_append, TcpRun.run, Runs.run_append]
    rw [TcpRun.run] at ih
    rw [ih]
    simp [afterChurn, firstClient, TcpRun.step, DnsServerTcp.acceptCb, DnsServerTcp.addClient,
      DnsServerTcp.find, DnsServerTcp.timerCb, DnsServerTcp.removeClient, LinkedLists.unlink,
      Nat.add_comm 1]
    decide

/-- With `2 ^ 64` accepts in between, two listed clients share an id. -/
theorem clientTable_ids_collide :
    ¬∀ (limit : ℕ) (es : List TcpEvent), 1 ≤ limit → limit ≤ 200 → (∀ e ∈ es, e.Accepts) →
      ((TcpRun.run limit es).server.clients.map TcpClient.id).Nodup := by
  intro h
  obtain ⟨n, hn⟩ : ∃ n : ℕ, n + 1 = 2 ^ 64 := ⟨2 ^ 64 - 1, rfl⟩
  have hes : ∀ e ∈ .accept (.sock 7 []) :: churn n ++ [.accept (.sock 8 [])], e.Accepts := by
    intro e he
    simp only [churn, List.cons_append, List.mem_cons, List.mem_append, List.mem_flatMap,
      List.not_mem_nil, or_false] at he
    rcases he with rfl | ⟨i, -, rfl | rfl⟩ | rfl <;> trivial
  have hnd := h 2 _ (by decide) (by decide) hes
  have hrun := run_churn n
  rw [TcpRun.run] at hrun
  rw [TcpRun.run, Runs.run_concat, hrun] at hnd
  have hid : ((1 + n) % 2 ^ 64 + 1) % 2 ^ 64 = 1 := by omega
  simp only [TcpRun.step, afterChurn, DnsServerTcp.acceptCb, DnsServerTcp.addClient, hid] at hnd
  exact absurd hnd (by simp [firstClient])

end HttpsDnsProxy

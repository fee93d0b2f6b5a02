import QuicWire.Proofs.Conservation

set_option autoImplicit false

namespace QuicWire.Splitter

variable {σ F : Type} {ask : PacketType → σ → ParseContext × σ} {decode : FrameDecoder F}

def followedBy (more : Bytes) (s : Splitter σ) : Splitter σ :=
  { s with datagram := s.datagram ++ more }

def recalling (asked : List PacketType) (s : Splitter (List PacketType × σ)) :
    Splitter (List PacketType × σ) :=
  { s with contexts := (asked ++ s.contexts.1, s.contexts.2) }

def Visit.followedBy (more : Bytes) (v : Visit σ F) : Visit σ F :=
  ⟨v.before.followedBy more, v.item, v.after.followedBy more⟩

def Visit.recalling (asked : List PacketType) (v : Visit (List PacketType × σ) F) :
    Visit (List PacketType × σ) F :=
  ⟨v.before.recalling asked, v.item, v.after.recalling asked⟩

theorem askFor_of_spelled {ctx : ParseContext} {s : Splitter σ} {p : Packet F} {bytes rest : Bytes}
    (spelled : p.Spelled ctx decode bytes) (split : s.datagram = bytes ++ rest) :
    s.askFor ask = ask p.type s.contexts := by
  simp only [askFor, split, Packet.peekType_of_spelled spelled]

theorem unfailed_of_next {s s' : Splitter σ} {item : Except Failure (Packet F)}
    (next : s.next ask decode = some (item, s')) : s.failed = false := by
  rw [← Bool.not_eq_true]
  intro failed
  rw [next_eq_none_iff.mpr (.inl failed)] at next
  cases next

theorem next_followedBy {s s' : Splitter σ} {p : Packet F} (next : s.next ask decode = some (.ok p, s'))
    (delimited : p.type.isDelimited = true) (more : Bytes) :
    (s.followedBy more).next ask decode = some (.ok p, s'.followedBy more) := by
  have unfailed := unfailed_of_next next
  obtain ⟨contexts, -, ⟨_, bytes, ⟨⟩, spelled, split, -, unfailed'⟩ | ⟨_, ⟨⟩, _⟩⟩ := next_cases next
  have asked : s.askFor ask = ask p.type s.contexts := askFor_of_spelled spelled split
  rw [asked] at contexts spelled
  obtain ⟨datagram, before, failed⟩ := s
  obtain ⟨rest, after, failed'⟩ := s'
  dsimp only at split contexts unfailed unfailed' spelled
  subst split contexts unfailed unfailed'
  rw [followedBy, followedBy, List.append_assoc]
  apply next_of_spelled spelled
  · intro undelimited
    rw [delimited] at undelimited
    cases undelimited
  · intro short
    rw [short] at delimited
    cases delimited

theorem next_recalling (asked : List PacketType) (s : Splitter (List PacketType × σ)) :
    (s.recalling asked).next (recording ask) decode =
      (s.next (recording ask) decode).map fun answer => (answer.1, answer.2.recalling asked) := by
  have answers : (s.recalling asked).askFor (recording ask) =
      ((s.askFor (recording ask)).1,
        (asked ++ (s.askFor (recording ask)).2.1, (s.askFor (recording ask)).2.2)) := by
    simp only [askFor, recalling, recording]
    rcases Packet.peekType s.datagram with _ | _ | t
    · rfl
    · rfl
    · simp only [List.append_assoc]
  unfold next
  rw [answers]
  by_cases ended : s.failed = true ∨ s.datagram.isEmpty = true
  · simp only [recalling, ended, if_true, Option.map_none]
  · simp only [recalling, ended, if_false]
    split <;> rfl

theorem Visits.unique {s last last' : Splitter σ} {visits visits' : List (Visit σ F)}
    (run : Visits ask decode s visits last) (other : Visits ask decode s visits' last') :
    visits' = visits ∧ last' = last := by
  induction run generalizing visits' with
  | done ended =>
    cases other with
    | done => exact ⟨rfl, rfl⟩
    | visit next =>
      rw [ended] at next
      cases next
  | visit next rest ih =>
    cases other with
    | done ended =>
      rw [ended] at next
      cases next
    | visit next' rest' =>
      rw [next] at next'
      cases next'
      obtain ⟨rfl, rfl⟩ := ih rest'
      exact ⟨rfl, rfl⟩

theorem Visits.followedBy {s mid last : Splitter σ} {visits others : List (Visit σ F)} {more : Bytes}
    (run : Visits ask decode s visits mid)
    (delimited : ∀ v ∈ visits, ∃ p, v.item = .ok p ∧ p.type.isDelimited = true)
    (rest : Visits ask decode (mid.followedBy more) others last) :
    Visits ask decode (s.followedBy more) (visits.map (Visit.followedBy more) ++ others) last := by
  -- Where the first run comes to its end, the second takes over.
  induction run with
  | done => exact rest
  | visit next _ ih =>
    rw [List.forall_mem_cons] at delimited
    obtain ⟨⟨p, taken, bounded⟩, delimited⟩ := delimited
    dsimp only at taken
    subst taken
    exact .visit (next_followedBy next bounded more) (ih delimited rest)

theorem Visits.recalling {s last : Splitter (List PacketType × σ)}
    {visits : List (Visit (List PacketType × σ) F)} (asked : List PacketType)
    (run : Visits (recording ask) decode s visits last) :
    Visits (recording ask) decode (s.recalling asked) (visits.map (Visit.recalling asked))
      (last.recalling asked) := by
  induction run with
  | done ended =>
    apply Visits.done
    rw [next_recalling, ended]
    rfl
  | visit next _ ih =>
    refine .visit ?_ ih
    rw [next_recalling, next]
    rfl

theorem visits_append {contexts contexts' : σ} {front : Bytes} {asked : List PacketType}
    {visits : List (Visit (List PacketType × σ) F)}
    (run : Visits (recording ask) decode { datagram := front, contexts := ([], contexts) } visits
      { datagram := [], contexts := (asked, contexts') })
    (delimited : ∀ v ∈ visits, ∃ p, v.item = .ok p ∧ p.type.isDelimited = true) (back : Bytes) :
    let start : Splitter (List PacketType × σ) := { datagram := back, contexts := ([], contexts') }
    (∃ others last, Visits (recording ask) decode start others last) ∧
      ∀ others last, Visits (recording ask) decode start others last → ∀ all final,
        Visits (recording ask) decode { datagram := front ++ back, contexts := ([], contexts) } all final ↔
          all = visits.map (Visit.followedBy back) ++ others.map (Visit.recalling asked) ∧
            final = last.recalling asked := by
  intro start
  refine ⟨Visits.exists _ _ start, ?_⟩
  intro others last rest all final
  have recalled := rest.recalling asked
  rw [recalling, List.append_nil] at recalled
  have whole := run.followedBy delimited recalled
  constructor
  · exact fun other => whole.unique other
  · intro same
    obtain ⟨rfl, rfl⟩ := same
    exact whole

theorem visits_append_unreadable :
    let ask (_ : PacketType) (tagLen : Nat) : ParseContext × Nat := ({ tagLen }, tagLen + 1)
    let start (datagram : Bytes) (tagLen : Nat) : Splitter (List PacketType × Nat) :=
      { datagram, contexts := ([], tagLen) }
    let front := Flight.datagram.take 15
    let alone : Visit (List PacketType × Nat) RawPayload :=
      ⟨start front 1, .ok Flight.initial.packet, { datagram := [], contexts := ([.initial], 2) }⟩
    let rejected : Visit (List PacketType × Nat) RawPayload :=
      ⟨start [0x40] 2, .error (.refused .violation),
        { datagram := [0x40], contexts := ([.oneRtt], 3), failed := true }⟩
    Visits (recording ask) RawPayload.decoder (start front 1) [alone] alone.after ∧
      (∀ v ∈ [alone], ∃ p, v.item = .ok p ∧ p.type.isDelimited = true) ∧
      Visits (recording ask) RawPayload.decoder (start [0x40] 2) [rejected] rejected.after ∧
      Visits (recording ask) RawPayload.decoder (start (front ++ [0x40]) 1)
        [alone.followedBy [0x40], rejected.recalling [.initial]]
        { datagram := [0x40], contexts := ([.initial, .oneRtt], 3), failed := true } := by
  intro ask start front alone rejected
  have body : Packet.Body.Spelled { tagLen := 1 } RawPayload.decoder 0xc0 0 [⟨[6]⟩] [0, 6, 0] :=
    ⟨[0], [6], [0], rfl, rfl, rfl, rfl, RawPayload.decodeAll_decoder (by decide)⟩
  have spelled : Flight.initial.packet.Spelled { tagLen := 1 } RawPayload.decoder front :=
    ⟨[1], ⟨1, by decide, by decide, rfl⟩, 0xc0, [3], [0, 6, 0], by decide, rfl,
      ⟨1, by decide, by decide, rfl⟩, body, by decide⟩
  have next : (start (front ++ []) 1).next (recording ask) RawPayload.decoder =
      some (.ok Flight.initial.packet, alone.after) := next_of_spelled spelled nofun nofun
  rw [List.append_nil] at next
  have run : Visits (recording ask) RawPayload.decoder (start front 1) [alone] alone.after :=
    .visit next (.done rfl)
  have delimited : ∀ v ∈ [alone], ∃ p, v.item = .ok p ∧ p.type.isDelimited = true :=
    List.forall_mem_singleton.mpr ⟨_, rfl, rfl⟩
  have rest : Visits (recording ask) RawPayload.decoder (start [0x40] 2) [rejected] rejected.after :=
    .visit rfl (.done rfl)
  exact ⟨run, delimited, rest, ((visits_append run delimited [0x40]).2 _ _ rest _ _).mpr ⟨rfl, rfl⟩⟩

end QuicWire.Splitter

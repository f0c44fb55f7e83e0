/-
Libmodbus/Expected.lean

The length of a confirmation, twice.  The client computes it from the request,
and the receive loop reads it off the confirmation:

    compute_response_length_from_request   quantity of the request
    compute_meta_length_after_function,
    compute_data_length_after_meta         byte count of the confirmation

They agree for every function but READ_EXCEPTION_STATUS, whose confirmation is
a function code and a status and is expected to be a byte longer; such a
confirmation is read and then refused for its length.
-/
import Libmodbus.Frames

namespace Libmodbus

open CSem Wire Posix

variable {σ : Type}

/-- A request PDU, and a confirmation of its function in the shape of the protocol: what is echoed
need not be right, but a byte count is that of the quantity. -/
inductive Confirms : List UInt8 → List UInt8 → Prop
  | readBits {fc : UInt8} (hfc : fc = 0x01 ∨ fc = 0x02) (ah al nh nl count : UInt8)
      (values : List UInt8) (hnb : 1 ≤ word nh nl ∧ word nh nl ≤ maxReadBits)
      (hcount : count.toNat = (word nh nl + 7) / 8) (hvalues : values.length = count.toNat) :
      Confirms [fc, ah, al, nh, nl] (fc :: count :: values)
  | readRegisters {fc : UInt8} (hfc : fc = 0x03 ∨ fc = 0x04) (ah al nh nl count : UInt8)
      (values : List UInt8) (hnb : 1 ≤ word nh nl ∧ word nh nl ≤ maxReadRegisters)
      (hcount : count.toNat = 2 * word nh nl) (hvalues : values.length = count.toNat) :
      Confirms [fc, ah, al, nh, nl] (fc :: count :: values)
  | writeSingle {fc : UInt8} (hfc : fc = 0x05 ∨ fc = 0x06) (ah al vh vl ah' al' vh' vl' : UInt8) :
      Confirms [fc, ah, al, vh, vl] [fc, ah', al', vh', vl']
  | exceptionStatus (status : UInt8) : Confirms [0x07] [0x07, status]
  | writeMultiple {fc : UInt8} (hfc : fc = 0x0F ∨ fc = 0x10) (ah al nh nl count : UInt8)
      (values : List UInt8) (ah' al' nh' nl' : UInt8) :
      Confirms (fc :: ah :: al :: nh :: nl :: count :: values) [fc, ah', al', nh', nl']
  | maskWrite (ah al mh ml oh ol ah' al' mh' ml' oh' ol' : UInt8) :
      Confirms [0x16, ah, al, mh, ml, oh, ol] [0x16, ah', al', mh', ml', oh', ol']
  | writeAndRead (rh rl nh nl wh wl mh ml count count' : UInt8) (values values' : List UInt8)
      (hnb : 1 ≤ word nh nl ∧ word nh nl ≤ maxWrReadRegisters)
      (hcount : count'.toNat = 2 * word nh nl) (hvalues : values'.length = count'.toNat) :
      Confirms (0x17 :: rh :: rl :: nh :: nl :: wh :: wl :: mh :: ml :: count :: values)
        (0x17 :: count' :: values')

/-- Such a confirmation is a response of the protocol that fits its envelope. -/
theorem Confirms.response {q p : List UInt8} (h : Confirms q p) :
    ResponsePdu p ∧ p.length ≤ maxPduLength := by
  cases h with
  | readBits hfc ah al nh nl count values hnb hcount hvalues =>
    simp only [maxReadBits] at hnb
    refine ⟨.values (hfc.imp_right Or.inl) count values hvalues, ?_⟩
    simp only [List.length_cons, maxPduLength]
    omega
  | readRegisters hfc ah al nh nl count values hnb hcount hvalues =>
    simp only [maxReadRegisters] at hnb
    refine ⟨.values (Or.inr (Or.inr (hfc.imp_right Or.inl))) count values hvalues, ?_⟩
    simp only [List.length_cons, maxPduLength]
    omega
  | writeSingle hfc ah al vh vl ah' al' vh' vl' =>
    exact ⟨.written (hfc.imp_right Or.inl) ah' al' vh' vl', show 5 ≤ 253 by decide⟩
  | exceptionStatus status => exact ⟨.exceptionStatus status, show 2 ≤ 253 by decide⟩
  | writeMultiple hfc ah al nh nl count values ah' al' nh' nl' =>
    exact ⟨.written (Or.inr (Or.inr hfc)) ah' al' nh' nl', show 5 ≤ 253 by decide⟩
  | maskWrite ah al mh ml oh ol ah' al' mh' ml' oh' ol' =>
    exact ⟨.maskWritten ah' al' mh' ml' oh' ol', show 7 ≤ 253 by decide⟩
  | writeAndRead rh rl nh nl wh wl mh ml count count' values values' hnb hcount hvalues =>
    simp only [maxWrReadRegisters] at hnb
    refine ⟨.values (by decide) count' values' hvalues, ?_⟩
    simp only [List.length_cons, maxPduLength]
    omega

theorem head_ne_exceptionStatus {fc : UInt8} {data : List UInt8} (h : fc ≠ 0x07) :
    (fc :: data).head? ≠ some 0x07 := fun hhead => h (Option.some.inj hhead)

/-- The length that the client expects, against that of the confirmation. -/
theorem Confirms.computeResponseLength (be : Backend) {q : Adu} {p : List UInt8}
    (h : Confirms q.pdu p) (trailer : List UInt8) :
    ∃ n : Nat, computeResponseLengthFromRequest be (q.wrapped be trailer) =
        .ok ((be.headerLength + n + be.checksumLength : Nat) : Int) ∧
      (n = p.length ↔ q.pdu.head? ≠ some 0x07) := by
  have hfield : ∀ {i : Nat} {b : UInt8}, rd q.pdu i = .ok b →
      rd (q.wrapped be trailer) (be.headerLength + i) = .ok b := by
    intro i b hb
    obtain ⟨hi, -⟩ := List.getElem?_eq_some_iff.mp (rd_eq_ok.mp hb)
    rw [q.rd_wrapped trailer hi, hb]
  have hfun : ∀ {fc : UInt8}, rd q.pdu 0 = .ok fc →
      rd (q.wrapped be trailer) be.headerLength = .ok fc := fun hb => hfield hb
  generalize hq : q.pdu = pdu at h hfield hfun ⊢
  cases h with
  | @readBits fc hfc ah al nh nl count values hnb hcount hvalues =>
    have hcode : fc.toNat = fcReadCoils ∨ fc.toNat = fcReadDiscreteInputs :=
      hfc.imp (congrArg UInt8.toNat) (congrArg UInt8.toNat)
    refine ⟨2 + word nh nl / 8 + if word nh nl % 8 ≠ 0 then 1 else 0, ?_, ?_⟩
    · exact computeResponseLength_bits (hfun rfl) hcode (hfield rfl) (hfield rfl)
    · have hne : fc ≠ 0x07 := by
        rcases hfc with rfl | rfl <;> decide
      refine iff_of_true ?_ (head_ne_exceptionStatus hne)
      simp only [List.length_cons, hvalues, hcount]
      split_ifs <;> omega
  | @readRegisters fc hfc ah al nh nl count values hnb hcount hvalues =>
    refine ⟨2 + 2 * word nh nl, ?_, ?_⟩
    · exact computeResponseLength_registers (hfun rfl)
        (Or.inr (hfc.imp (congrArg UInt8.toNat) (congrArg UInt8.toNat))) (hfield rfl) (hfield rfl)
    · have hne : fc ≠ 0x07 := by
        rcases hfc with rfl | rfl <;> decide
      refine iff_of_true ?_ (head_ne_exceptionStatus hne)
      simp only [List.length_cons, hvalues, hcount]
      omega
  | @writeSingle fc hfc ah al vh vl ah' al' vh' vl' =>
    refine ⟨5, ?_, ?_⟩
    · rw [computeResponseLengthFromRequest, hfun rfl]
      rcases hfc with rfl | rfl <;> rfl
    · refine iff_of_true rfl (head_ne_exceptionStatus ?_)
      rcases hfc with rfl | rfl <;> decide
  | exceptionStatus status =>
    -- three bytes are expected, and two are sent
    refine ⟨3, ?_, ?_⟩
    · rw [computeResponseLengthFromRequest, hfun rfl]
      rfl
    · exact iff_of_false (show ¬ 3 = 2 by decide) (not_not.mpr rfl)
  | @writeMultiple fc hfc ah al nh nl count values ah' al' nh' nl' =>
    refine ⟨5, ?_, ?_⟩
    · rw [computeResponseLengthFromRequest, hfun rfl]
      rcases hfc with rfl | rfl <;> rfl
    · refine iff_of_true rfl (head_ne_exceptionStatus ?_)
      rcases hfc with rfl | rfl <;> decide
  | maskWrite ah al mh ml oh ol ah' al' mh' ml' oh' ol' =>
    refine ⟨7, ?_, ?_⟩
    · rw [computeResponseLengthFromRequest, hfun rfl]
      rfl
    · exact iff_of_true rfl (head_ne_exceptionStatus (by decide))
  | writeAndRead rh rl nh nl wh wl mh ml count count' values values' hnb hcount hvalues =>
    refine ⟨2 + 2 * word nh nl, ?_, ?_⟩
    · exact computeResponseLength_registers (hfun rfl) (Or.inl rfl) (hfield rfl) (hfield rfl)
    · refine iff_of_true ?_ (head_ne_exceptionStatus (by decide))
      simp only [List.length_cons, hvalues, hcount]
      omega

/-- **The expected length is the length that is read, for every function but 0x07.**  A
confirmation at the front of the line is consumed whole, and so many bytes are what the client
expects of its request, if and only if that does not ask for the exception status. -/
theorem expected_length_iff {os : Os σ} {view : σ → List UInt8} {took : σ → List UInt8 → σ → Prop}
    (hs : Source os view took) (hf : 0 < os.fuel) {st : St σ} (hc : Connected st.ctx) {q p : Adu}
    (h : Confirms q.pdu p.pdu) (trailer : List UInt8) {rest : List UInt8}
    (hv : view st.os = p.bytes st.ctx.backend ++ rest) :
    ∃ (s' : σ) (length : Int),
      modbusReceiveMsg os st .confirmation =
        .ok (p.verdict st.ctx, p.bytes st.ctx.backend, { st with os := s' }) ∧
      took st.os (p.bytes st.ctx.backend) s' ∧
      computeResponseLengthFromRequest st.ctx.backend (q.wrapped st.ctx.backend trailer) =
        .ok length ∧
      (length = (p.bytes st.ctx.backend).length ↔ q.pdu.head? ≠ some 0x07) := by
  obtain ⟨hresponse, hlen⟩ := h.response
  obtain ⟨s', hrcv, htook⟩ := modbusReceiveMsg_adu hs hf hc (hresponse.framed hlen) hv
  obtain ⟨n, hcompute, hiff⟩ := h.computeResponseLength st.ctx.backend trailer
  refine ⟨s', _, hrcv, htook, hcompute, ?_⟩
  rw [← hiff, Adu.length_bytes]
  omega

/-- Three coils are asked for, and one byte comes. -/
theorem expected_length_iff_sample :
    ∃ (s' : Link) (length : Int),
      modbusReceiveMsg (linkOs 1) (sampleSt .tcp 17 [0, 7, 0, 0, 0, 4, 17, 0x01, 1, 5]) .confirmation =
        .ok ((⟨7, 0, 4, 17, [0x01, 1, 5]⟩ : Adu).verdict (sampleSt .tcp 17 []).ctx,
          [0, 7, 0, 0, 0, 4, 17, 0x01, 1, 5],
          { sampleSt .tcp 17 [0, 7, 0, 0, 0, 4, 17, 0x01, 1, 5] with os := s' }) ∧
      Link.Took (sampleSt .tcp 17 [0, 7, 0, 0, 0, 4, 17, 0x01, 1, 5]).os
        [0, 7, 0, 0, 0, 4, 17, 0x01, 1, 5] s' ∧
      computeResponseLengthFromRequest .tcp [0, 7, 0, 0, 0, 6, 17, 0x01, 0, 0, 0, 3] = .ok length ∧
      (length = ([0, 7, 0, 0, 0, 4, 17, 0x01, 1, 5] : List UInt8).length ↔
        ([0x01, 0, 0, 0, 3] : List UInt8).head? ≠ some 0x07) := by
  have h : Confirms [0x01, 0, 0, 0, 3] [0x01, 1, 5] :=
    .readBits (Or.inl rfl) 0 0 0 3 1 [5] (by decide) (by decide) rfl
  have hq : (⟨7, 0, 6, 17, [0x01, 0, 0, 0, 3]⟩ : Adu).pdu = [0x01, 0, 0, 0, 3] := rfl
  have hp : (⟨7, 0, 4, 17, [0x01, 1, 5]⟩ : Adu).pdu = [0x01, 1, 5] := rfl
  rw [← hq, ← hp] at h
  exact expected_length_iff (linkOs_source 1) Nat.one_pos
    (connected_sampleSt .tcp 17 [0, 7, 0, 0, 0, 4, 17, 0x01, 1, 5]) h [] (List.append_nil _).symm

/-- Ten bytes are expected for the exception status, and nine are read. -/
theorem exceptionStatus_expected_longer :
    computeResponseLengthFromRequest .tcp [0, 7, 0, 0, 0, 2, 17, 0x07] = .ok 10 ∧
    (modbusReceiveMsg (linkOs 1) (sampleSt .tcp 17 [0, 7, 0, 0, 0, 3, 17, 0x07, 0x5A])
      .confirmation).map (fun r => (r.1, r.2.1)) = .ok (9, [0, 7, 0, 0, 0, 3, 17, 0x07, 0x5A]) := by
  decide

end Libmodbus

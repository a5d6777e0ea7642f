import Jens.Util.Gateway
import Mathlib.Data.List.TakeWhile

/-!
# When the host of Grafana is usable

`RetrieveMostLikelyGatewayIp` replaces what it finds by `jens` if it is an address, and returns it
if it is not.  So its result is usable only as long as no gateway is found (`usable_iff`): the first
command names no address to ask for, or the second one fails, or its output is one of the two names.
An address has hexadecimal digits, colons and dots only (`isAddressByte_of_parseIP`), so a line that
is cut behind a blank names none.
-/

namespace Jens

/-! ### Addresses -/

/-- The bytes of an IP address. -/
def isAddressByte (b : UInt8) : Bool := isHexByte b || b = '.'.toUInt8 || b = ':'.toUInt8

theorem isAddressByte_of_isHexByte {b : UInt8} (h : isHexByte b = true) :
    isAddressByte b = true := by
  simp [isAddressByte, h]

theorem isAddressByte_of_isDigitByte {b : UInt8} (h : isDigitByte b = true) :
    isAddressByte b = true :=
  isAddressByte_of_isHexByte (by simp [isHexByte, h])

/-- A byte of a text separates its fields or stands in one of them. -/
theorem eq_or_mem_field {b : UInt8} (c : UInt8) {s : List UInt8} (h : b ∈ s) :
    b = c ∨ ∃ field ∈ s.splitOn c, b ∈ field := by
  induction s with
  | nil => cases h
  | cons x s ih =>
    rw [List.splitOn_cons_eq_if_modifyHead]
    obtain ⟨field, fields, hfields⟩ := List.exists_cons_of_ne_nil (List.splitOn_ne_nil c s)
    rw [hfields] at ih ⊢
    rcases List.mem_cons.mp h with rfl | hs
    · by_cases hx : b = c
      · exact .inl hx
      · exact .inr ⟨b :: field, by simp [hx], List.mem_cons_self⟩
    · apply (ih hs).imp_right
      rintro ⟨f, hf, hb⟩
      split_ifs
      · exact ⟨f, .tail _ hf, hb⟩
      · rcases List.mem_cons.mp hf with rfl | hf
        · exact ⟨x :: f, List.mem_cons_self, .tail _ hb⟩
        · exact ⟨f, .tail _ hf, hb⟩

theorem isAddressByte_of_parseIPv4 {s : List UInt8} (h : parseIPv4 s = true) :
    ∀ b ∈ s, isAddressByte b = true := by
  intro b hb
  rcases eq_or_mem_field '.'.toUInt8 hb with rfl | ⟨field, hfield, hb⟩
  · rfl
  · rw [parseIPv4, Bool.and_eq_true, List.all_eq_true] at h
    have hoctet := h.2 field hfield
    simp only [isOctet, Bool.and_eq_true, List.all_eq_true] at hoctet
    exact isAddressByte_of_isDigitByte (hoctet.1.1.2 b hb)

theorem isAddressByte_of_parseGroups {n : ℕ} {ellipsis : Bool} {s : List UInt8}
    (h : parseGroups n ellipsis s = true) : ∀ b ∈ s, isAddressByte b = true := by
  induction n generalizing ellipsis s with
  | zero => cases h
  | succ n ih =>
    have hdigits : ∀ b ∈ s.takeWhile isHexByte, isAddressByte b = true := fun b hb =>
      isAddressByte_of_isHexByte (List.mem_takeWhile_imp hb)
    suffices hrest : ∀ b ∈ s.dropWhile isHexByte, isAddressByte b = true by
      intro b hb
      rw [← List.takeWhile_append_dropWhile (p := isHexByte) (l := s), List.mem_append] at hb
      exact hb.elim (hdigits b) (hrest b)
    rw [parseGroups] at h
    split_ifs at h with hlen
    cases hrest : s.dropWhile isHexByte with
    | nil => simp
    | cons c rest =>
      rw [hrest] at h
      dsimp only at h
      split_ifs at h with hdot hcolon
      · -- an IPv4 address: `s` is read again from its start
        simp only [Bool.and_eq_true] at h
        intro b hb
        refine isAddressByte_of_parseIPv4 h.2 b (List.dropWhile_suffix isHexByte |>.subset ?_)
        rwa [hrest]
      · have hc : isAddressByte c = true := by
          rw [hcolon]
          rfl
        cases rest with
        | nil => cases h
        | cons d rest =>
          dsimp only at h
          rw [List.forall_mem_cons]
          split_ifs at h with hd hnil
          · rw [List.isEmpty_iff.mp hnil, hd, List.forall_mem_singleton]
            exact ⟨hc, rfl⟩
          · rw [Bool.and_eq_true] at h
            rw [hd, List.forall_mem_cons]
            exact ⟨hc, rfl, ih h.2⟩
          · exact ⟨hc, ih h⟩

/-- An IP address has no other bytes. -/
theorem isAddressByte_of_parseIP {s : List UInt8} (h : parseIP s = true) :
    ∀ b ∈ s, isAddressByte b = true := by
  unfold parseIP at h
  split at h
  · cases h
  · have hcolons : ∀ b ∈ ascii "::", isAddressByte b = true := by
      intro b hb
      obtain rfl : b = ':'.toUInt8 := by simpa [ascii] using hb
      rfl
    split_ifs at h with hdot hcolon
    · exact isAddressByte_of_parseIPv4 h
    · unfold parseIPv6 at h
      split_ifs at h with hprefix hlen
      · obtain ⟨rest, rfl⟩ := List.isPrefixOf_iff_prefix.mp hprefix
        have hrest : rest = [] := by
          rw [← List.length_eq_zero_iff]
          have : (ascii "::").length = 2 := rfl
          rw [List.length_append] at hlen
          omega
        rwa [hrest, List.append_nil]
      · obtain ⟨rest, rfl⟩ := List.isPrefixOf_iff_prefix.mp hprefix
        intro b hb
        rcases List.mem_append.mp hb with hb | hb
        · exact hcolons b hb
        · exact isAddressByte_of_parseGroups h b hb
      · exact isAddressByte_of_parseGroups h

/-- A text with a blank is neither an address nor `jens`. -/
theorem isIpOrJens_of_blank {s : List UInt8} (h : ' '.toUInt8 ∈ s) : isIpOrJens s = false := by
  rw [isIpOrJens, Bool.or_eq_false_iff, decide_eq_false_iff_not]
  constructor
  · by_contra hip
    rw [Bool.not_eq_false] at hip
    exact absurd (isAddressByte_of_parseIP hip _ h) (by decide)
  · rintro rfl
    exact absurd h (by decide)

/-! ### The first command -/

/-- The first command names the address `usr`: it fails or prints no whole line, and then it is
`jens`, or the only line it prints is `usr`, or the second one is. -/
inductive NamesAddress (users : CommandResult) : List UInt8 → Prop
  | failed (h : users.err.isSome) : NamesAddress users (ascii "jens")
  | noLine (hok : users.err = none) (h : '\n'.toUInt8 ∉ users.sOut) :
    NamesAddress users (ascii "jens")
  | oneLine {usr rest : List UInt8} (hok : users.err = none)
    (h : users.sOut = usr ++ '\n'.toUInt8 :: rest) (hline : '\n'.toUInt8 ∉ usr)
    (hrest : '\n'.toUInt8 ∉ rest) (hblank : ' '.toUInt8 ∉ usr) : NamesAddress users usr
  | moreLines {first usr rest : List UInt8} (hok : users.err = none)
    (h : users.sOut = first ++ '\n'.toUInt8 :: (usr ++ '\n'.toUInt8 :: rest))
    (hfirst : '\n'.toUInt8 ∉ first) (hline : '\n'.toUInt8 ∉ usr) : NamesAddress users usr

variable {sh : List UInt8 → CommandResult}

theorem getUser_of_failed (h : (sh cmdGetUsers).err.isSome) : getUser sh = .ok (ascii "jens") := by
  rw [getUser]
  simp only [h, if_true]

theorem getUser_of_noLine (hok : (sh cmdGetUsers).err = none)
    (h : '\n'.toUInt8 ∉ (sh cmdGetUsers).sOut) : getUser sh = .ok (ascii "jens") := by
  rw [getUser]
  simp [hok, List.splitOn_eq_singleton h]

theorem exists_splitAfter_eq_cons (s : List UInt8) (sep : UInt8) :
    ∃ l ls, splitAfter s sep = l :: ls := by
  rw [splitAfter]
  exact List.exists_cons_of_ne_nil (by simp)

/-- The first piece of a text reaches to the separator. -/
theorem headD_splitAfter (s : List UInt8) (sep : UInt8) :
    (sep ∉ s → (splitAfter s sep).headD [] = s) ∧
      (sep ∈ s → sep ∈ (splitAfter s sep).headD []) := by
  constructor
  · intro h
    rw [splitAfter, List.splitOn_eq_singleton h]
    rfl
  · intro h
    obtain ⟨a, b, rfl, ha⟩ := List.eq_append_cons_of_mem h
    obtain ⟨last, fields, hfields⟩ := List.exists_cons_of_ne_nil (List.splitOn_ne_nil sep b)
    rw [splitAfter, List.splitOn_append_cons_self_of_not_mem ha, hfields]
    simp

theorem getUser_of_oneLine {line rest : List UInt8} (hok : (sh cmdGetUsers).err = none)
    (h : (sh cmdGetUsers).sOut = line ++ '\n'.toUInt8 :: rest) (hline : '\n'.toUInt8 ∉ line)
    (hrest : '\n'.toUInt8 ∉ rest) : getUser sh = .ok ((splitAfter line ' '.toUInt8).headD []) := by
  have hsplit : (sh cmdGetUsers).sOut.splitOn '\n'.toUInt8 = [line, rest] := by
    rw [h, List.splitOn_append_cons_self_of_not_mem hline, List.splitOn_eq_singleton hrest]
  obtain ⟨l, ls, hl⟩ := exists_splitAfter_eq_cons line ' '.toUInt8
  rw [getUser]
  simp [hok, hsplit, hl]

theorem getUser_of_moreLines {first line rest : List UInt8} (hok : (sh cmdGetUsers).err = none)
    (h : (sh cmdGetUsers).sOut = first ++ '\n'.toUInt8 :: (line ++ '\n'.toUInt8 :: rest))
    (hfirst : '\n'.toUInt8 ∉ first) (hline : '\n'.toUInt8 ∉ line) : getUser sh = .ok line := by
  obtain ⟨last, lines, hlines⟩ := List.exists_cons_of_ne_nil
    (List.splitOn_ne_nil '\n'.toUInt8 rest)
  have hsplit : (sh cmdGetUsers).sOut.splitOn '\n'.toUInt8 = first :: line :: last :: lines := by
    rw [h, List.splitOn_append_cons_self_of_not_mem hfirst,
      List.splitOn_append_cons_self_of_not_mem hline, hlines]
  rw [getUser]
  simp [hok, hsplit]

/-- The three shapes of an output. -/
theorem output_cases (out : List UInt8) :
    '\n'.toUInt8 ∉ out ∨
    (∃ line rest, out = line ++ '\n'.toUInt8 :: rest ∧ '\n'.toUInt8 ∉ line ∧
      '\n'.toUInt8 ∉ rest) ∨
    (∃ first line rest, out = first ++ '\n'.toUInt8 :: (line ++ '\n'.toUInt8 :: rest) ∧
      '\n'.toUInt8 ∉ first ∧ '\n'.toUInt8 ∉ line) := by
  by_cases h : '\n'.toUInt8 ∈ out
  · obtain ⟨first, rest, rfl, hfirst⟩ := List.eq_append_cons_of_mem h
    by_cases h' : '\n'.toUInt8 ∈ rest
    · obtain ⟨line, rest, rfl, hline⟩ := List.eq_append_cons_of_mem h'
      exact .inr (.inr ⟨first, line, rest, rfl, hfirst, hline⟩)
    · exact .inr (.inl ⟨first, rest, rfl, hfirst, h'⟩)
  · exact .inl h

/-- `get_user` gives the address that the first command names, and nothing else that is one. -/
theorem exists_getUser (sh : List UInt8 → CommandResult) :
    ∃ usr, getUser sh = .ok usr ∧ (NamesAddress (sh cmdGetUsers) usr ∨ isIpOrJens usr = false) := by
  cases hok : (sh cmdGetUsers).err with
  | some err =>
    have hfailed : (sh cmdGetUsers).err.isSome := by rw [hok]; rfl
    exact ⟨_, getUser_of_failed hfailed, .inl (.failed hfailed)⟩
  | none =>
    rcases output_cases (sh cmdGetUsers).sOut with hno | ⟨line, rest, hout, hline, hrest⟩ |
      ⟨first, line, rest, hout, hfirst, hline⟩
    · exact ⟨_, getUser_of_noLine hok hno, .inl (.noLine hok hno)⟩
    · refine ⟨_, getUser_of_oneLine hok hout hline hrest, ?_⟩
      by_cases hblank : ' '.toUInt8 ∈ line
      · exact .inr (isIpOrJens_of_blank ((headD_splitAfter line _).2 hblank))
      · rw [(headD_splitAfter line _).1 hblank]
        exact .inl (.oneLine hok hout hline hrest hblank)
    · exact ⟨_, getUser_of_moreLines hok hout hfirst hline,
        .inl (.moreLines hok hout hfirst hline)⟩

theorem NamesAddress.getUser {usr : List UInt8} (h : NamesAddress (sh cmdGetUsers) usr) :
    getUser sh = .ok usr := by
  cases h with
  | failed h => exact getUser_of_failed h
  | noLine hok h => exact getUser_of_noLine hok h
  | oneLine hok h hline hrest hblank =>
    rw [getUser_of_oneLine hok h hline hrest, (headD_splitAfter usr _).1 hblank]
  | moreLines hok h hfirst hline => exact getUser_of_moreLines hok h hfirst hline

/-! ### The host -/

/-- **The host is usable**: it is an address, `jens` or `localhost`, and the address of the gateway
if that is found. -/
def Usable (sh : List UInt8 → CommandResult) : Prop :=
  ∃ usr host, getUser sh = .ok usr ∧ retrieveMostLikelyGatewayIp sh = .ok host ∧
    (parseIP host = true ∨ host = ascii "jens" ∨ host = ascii "localhost") ∧
    (parseIP (getGateway sh (localUser usr)) = true → host = getGateway sh (localUser usr))

/-- No gateway is found for an address. -/
def NoGateway (res : CommandResult) : Prop :=
  res.err.isSome ∨ trimRight res.sOut '\n'.toUInt8 = ascii "jens" ∨
    trimRight res.sOut '\n'.toUInt8 = ascii "localhost"

theorem retrieveMostLikelyGatewayIp_eq {usr : List UInt8} (h : getUser sh = .ok usr) :
    retrieveMostLikelyGatewayIp sh = .ok
      (if isIpOrJens (getGateway sh (localUser usr)) then ascii "jens"
      else getGateway sh (localUser usr)) := by
  rw [retrieveMostLikelyGatewayIp, h]
  split_ifs with hgw <;> simp [hgw, bind, Except.bind, pure, Except.pure]

/-- What is returned is usable just if it is one of the two names before the last check. -/
theorem usable_iff_getGateway {usr : List UInt8} (h : getUser sh = .ok usr) :
    Usable sh ↔ getGateway sh (localUser usr) = ascii "jens" ∨
      getGateway sh (localUser usr) = ascii "localhost" := by
  have hhost := retrieveMostLikelyGatewayIp_eq h
  constructor
  · rintro ⟨usr', host, husr, hret, hname, hip⟩
    obtain rfl := Except.ok.inj (h.symm.trans husr)
    have heq := Except.ok.inj (hret.symm.trans hhost)
    split_ifs at heq with hgw
    · rw [isIpOrJens, Bool.or_eq_true, decide_eq_true_eq] at hgw
      rcases hgw with hgw | hgw
      · exact .inl ((hip hgw).symm.trans heq)
      · exact .inl hgw
    · rw [heq] at hname
      rw [isIpOrJens, Bool.or_eq_true, not_or] at hgw
      exact hname.resolve_left hgw.1
  · rintro (hgw | hgw)
    · rw [hgw] at hhost
      refine ⟨usr, ascii "jens", h, hhost, .inr (.inl rfl), fun _ => ?_⟩
      rw [hgw]
    · rw [hgw] at hhost
      refine ⟨usr, ascii "localhost", h, hhost, .inr (.inr rfl), fun _ => ?_⟩
      rw [hgw]

theorem getGateway_of_false {usr : List UInt8} (h : isIpOrJens usr = false) :
    getGateway sh (localUser usr) = ascii "jens" := by
  have hlocal : isIpOrJens (localUser usr) = false := by
    unfold localUser
    split_ifs
    · rfl
    · exact h
  rw [getGateway, hlocal]
  rfl

theorem getGateway_iff {usr : List UInt8} (h : isIpOrJens usr = true) :
    (getGateway sh (localUser usr) = ascii "jens" ∨
      getGateway sh (localUser usr) = ascii "localhost") ↔ NoGateway (sh (cmdGetGateway usr)) := by
  have hlocal : localUser usr = usr := by
    rw [localUser, if_neg]
    rintro rfl
    cases h
  rw [hlocal, getGateway, h, if_pos rfl, NoGateway]
  dsimp only
  split_ifs with hfailed
  · simp [hfailed]
  · simp [hfailed]

/-- **The host is usable exactly if no gateway is found**: whatever address the first command names,
the second one fails for it, or its output is `jens` or `localhost`. -/
theorem usable_iff (sh : List UInt8 → CommandResult) :
    Usable sh ↔ ∀ usr, NamesAddress (sh cmdGetUsers) usr → isIpOrJens usr = true →
      NoGateway (sh (cmdGetGateway usr)) := by
  obtain ⟨usr, husr, hnamed⟩ := exists_getUser sh
  have hunique {usr' : List UInt8} (h : NamesAddress (sh cmdGetUsers) usr') : usr' = usr :=
    Except.ok.inj (h.getUser.symm.trans husr)
  rw [usable_iff_getGateway husr]
  cases hip : isIpOrJens usr with
  | false =>
    refine iff_of_true (.inl (getGateway_of_false hip)) fun usr' h h' => ?_
    rw [hunique h, hip] at h'
    cases h'
  | true =>
    rw [getGateway_iff hip]
    constructor
    · intro hno usr' h _
      rwa [hunique h]
    · intro hno
      rcases hnamed with hnamed | hfalse
      · exact hno usr hnamed hip
      · rw [hip] at hfalse
        cases hfalse

/-- A user at 10.0.0.5, and the gateway 10.0.0.1. -/
def gatewayFound (cmd : List UInt8) : CommandResult :=
  if cmd = cmdGetUsers then ⟨none, ascii "10.0.0.5\n"⟩ else ⟨none, ascii "10.0.0.1\n"⟩

/-- **The gateway 10.0.0.1 is found.**  The host is `jens`. -/
theorem gateway_replaced :
    getGateway gatewayFound (ascii "10.0.0.5") = ascii "10.0.0.1" ∧
    parseIP (ascii "10.0.0.1") = true ∧
    retrieveMostLikelyGatewayIp gatewayFound = .ok (ascii "jens") ∧ ¬ Usable gatewayFound := by
  have husers : gatewayFound cmdGetUsers = ⟨none, ascii "10.0.0.5\n"⟩ := if_pos rfl
  have hgateway : gatewayFound (cmdGetGateway (ascii "10.0.0.5")) = ⟨none, ascii "10.0.0.1\n"⟩ :=
    if_neg (by decide)
  have hnamed : NamesAddress (gatewayFound cmdGetUsers) (ascii "10.0.0.5") := by
    rw [husers]
    have hout : ascii "10.0.0.5\n" = ascii "10.0.0.5" ++ '\n'.toUInt8 :: [] := rfl
    exact .oneLine rfl hout (by decide) (by decide) (by decide)
  have hgw : getGateway gatewayFound (ascii "10.0.0.5") = ascii "10.0.0.1" := by
    rw [getGateway, hgateway]
    decide
  have hlocal : localUser (ascii "10.0.0.5") = ascii "10.0.0.5" := by decide
  refine ⟨hgw, by decide, ?_, fun h => ?_⟩
  · rw [retrieveMostLikelyGatewayIp_eq hnamed.getUser, hlocal, hgw, if_pos (by decide)]
  · have hname := (usable_iff_getGateway hnamed.getUser).mp h
    rw [hlocal, hgw] at hname
    exact absurd hname (by decide)

end Jens

import WinProcessThread.TcpClient.LoopEnd
import WinProcessThread.TcpClient.Sending
import Mathlib.Data.List.TakeWhile

/-!
# The port that `connect` reads

The text behind the first colon goes through `stoi`, which stops at the first character that is no
digit and takes a sign, and its result is narrowed to sixteen bits by `htons`.  Nothing between the
two asks whether it is a port.
-/

namespace WinProcessThread.TcpClient

open Text

variable {loop other next : CommandLoop} {outcome otherOutcome : RoundOutcome}
variable {ip portText otherIp otherText : List Char}

/-- A decimal number without a sign that fits into sixteen bits. -/
structure IsPort (portText : List Char) : Prop where
  nonempty : portText ≠ []
  digits : ∀ char ∈ portText, char.isDigit = true
  value : Nat.ofDigitChars 10 portText 0 ≤ 65535

/-- The argument of `htons`, narrowed from `int`. -/
def ServerAddress.destinationPort (address : ServerAddress) : UInt16 :=
  address.port.toUInt32.toUInt16

theorem destinationPort_ofNat {ip : List Char} {value : ℕ} (hvalue : value ≤ 65535) :
    (ServerAddress.destinationPort ⟨ip, Int32.ofInt value⟩).toNat = value := by
  calc
    (ServerAddress.destinationPort ⟨ip, Int32.ofInt value⟩).toNat =
        (UInt32.ofNat value).toUInt16.toNat := by
      rw [ServerAddress.destinationPort, Int32.ofInt_eq_ofNat, Int32.toUInt32_ofNat']
    _ = value % 2 ^ 32 % 2 ^ 16 := by
      rw [UInt32.toNat_toUInt16, UInt32.toNat_ofNat']
    _ = value := by omega

theorem isSpace_of_isDigit {char : Char} (hdigit : char.isDigit = true) : isSpace char = false := by
  by_contra hspace
  have hmember : char ∈ [' ', '\t', '\n', '\x0B', '\x0C', '\r'] := by
    simpa only [isSpace, decide_eq_true_eq] using Bool.eq_true_of_not_eq_false hspace
  have hall : [' ', '\t', '\n', '\x0B', '\x0C', '\r'].all fun space ↦ !space.isDigit := by
    decide
  have hnone := List.all_eq_true.mp hall char hmember
  rw [hdigit] at hnone
  cases hnone

/-- A text of digits is scanned as a whole. -/
theorem scanInteger_of_digits {chars : List Char} (hnonempty : chars ≠ [])
    (hdigits : ∀ char ∈ chars, char.isDigit = true) :
    scanInteger chars = (some ((Nat.ofDigitChars 10 chars 0 : ℕ) : ℤ), []) := by
  have hsign : ∀ sign : Char, sign.isDigit = false → chars.head? ≠ some sign := by
    intro sign hsign hhead
    have hdigit := hdigits sign (List.mem_of_head? hhead)
    exact absurd hdigit (by rw [hsign]; decide)
  have hminus := hsign '-' (by decide)
  have hplus := hsign '+' (by decide)
  have htake : chars.takeWhile Char.isDigit = chars := List.takeWhile_eq_self_iff.mpr hdigits
  have hdrop : chars.dropWhile Char.isDigit = [] := List.dropWhile_eq_nil_iff.mpr hdigits
  unfold scanInteger
  simp [hminus, hplus, htake, hdrop, hnonempty]

/-- On a port, `stoi` gives its value. -/
theorem stoi_of_isPort (hport : IsPort portText) :
    stoi portText = some (Int32.ofInt (Nat.ofDigitChars 10 portText 0 : ℕ)) := by
  have hskip : portText.dropWhile isSpace = portText := by
    cases portText with
    | nil => rfl
    | cons first rest =>
      have hfirst := isSpace_of_isDigit (hport.digits first List.mem_cons_self)
      exact List.dropWhile_cons_of_neg (by rw [hfirst]; decide)
  have hvalue := hport.value
  have hrange : InRange (Nat.ofDigitChars 10 portText 0 : ℕ) := by
    constructor
    · omega
    · omega
  rw [stoi, hskip, scanInteger_of_digits hport.nonempty hport.digits]
  exact if_pos hrange

/-- The round has read this address and this text behind the first colon. -/
structure ReadsEndpoint (loop : CommandLoop) (ip portText : List Char) : Prop where
  word : (connectWord loop).value = ip ++ ':' :: portText
  colon : ':' ∉ ip

/-- The address and the port that the round prints. -/
def portLine (ip : List Char) (value : ℕ) : Message :=
  ⟨.cout, "Connection  IP: ".toList ++ ip ++ " Port: ".toList ++ (toString value).toList ++
    "\n".toList⟩

/-- The round goes on, and this is an address it has connected to. -/
def ConnectsTo (outcome : RoundOutcome) (loop next : CommandLoop)
    (address : ServerAddress) : Prop :=
  connectRound outcome loop = .running next ∧
    ∃ socket lastError, .connect socket address lastError ∈ callsSince loop.world next.world

theorem findIdx_colon (hcolon : ':' ∉ ip) (portText : List Char) :
    (ip ++ ':' :: portText).findIdx? (· = ':') = some ip.length := by
  have hnone : ip.findIdx? (· = ':') = none := by
    rw [List.findIdx?_eq_none_iff]
    intro char hchar
    exact decide_eq_false fun hsame ↦ hcolon (hsame ▸ hchar)
  rw [List.findIdx?_append, hnone, List.findIdx?_cons]
  simp

/-- Without a number the process ends. -/
theorem connectRound_of_stoi_none (hreads : ReadsEndpoint loop ip portText)
    (hport : stoi portText = none) (outcome : RoundOutcome) :
    connectRound outcome loop = .terminated := by
  have hword : (extractWord (loop.print connectHelp).cin (loop.print connectHelp).stdin []).value =
      ip ++ ':' :: portText := hreads.word
  have hdrop : (ip ++ ':' :: portText).drop (ip.length + 1) = portText := by
    simp
  unfold connectRound
  simp only [hword, findIdx_colon hreads.colon, hdrop, hport]

/-- The world in which the client connects. -/
def beforeConnect (loop : CommandLoop) (ip : List Char) (port : Int32) : World :=
  (loop.world.print connectHelp).print (connectionLine ip port)

theorem connectRound_of_stoi_some (hreads : ReadsEndpoint loop ip portText)
    (hip : isIPv4 ip = true) {port : Int32} (hport : stoi portText = some port)
    (outcome : RoundOutcome) :
    ∃ next, connectRound outcome loop = .running next ∧
      next.world = connectS ip port outcome.connect (beforeConnect loop ip port) := by
  have hword : (extractWord (loop.print connectHelp).cin (loop.print connectHelp).stdin []).value =
      ip ++ ':' :: portText := hreads.word
  have hdrop : (ip ++ ':' :: portText).drop (ip.length + 1) = portText := by
    simp
  have htake : (ip ++ ':' :: portText).take ip.length = ip := List.take_left
  unfold connectRound
  simp only [hword, findIdx_colon hreads.colon, hdrop, hport, htake, hip, if_true]
  exact ⟨_, rfl, rfl⟩

/-- The only address of `connect_s` is the one it was given. -/
theorem connect_mem_connectCalls {held socket : SOCKET} {port : Int32} {connect : ConnectOutcome}
    {address : ServerAddress} {lastError : Option Int32}
    (hmember : .connect socket address lastError ∈ connectCalls held ip port connect) :
    address = ⟨ip, port⟩ := by
  have hclosing : ∀ closing result,
      .connect socket address lastError ∈
        closingOnError closing (.connect closing ⟨ip, port⟩) result → address = ⟨ip, port⟩ := by
    intro closing result hcall
    cases result with
    | none => simp_all [closingOnError]
    | some code => simp_all [closingOnError]
  unfold connectCalls at hmember
  split at hmember
  · rcases List.mem_append.mp hmember with hopening | hcall
    · simp at hopening
    · exact hclosing _ _ hcall
  · rcases List.mem_append.mp hmember with hopening | hcall
    · simp at hopening
    · exact hclosing _ _ hcall

theorem exists_connect_mem_connectCalls (held : SOCKET) (ip : List Char) (port : Int32)
    (connect : ConnectOutcome) :
    ∃ socket lastError,
      .connect socket ⟨ip, port⟩ lastError ∈ connectCalls held ip port connect := by
  have hclosing : ∀ socket result, .connect socket ⟨ip, port⟩ result ∈
      closingOnError socket (.connect socket ⟨ip, port⟩) result := by
    intro socket result
    cases result <;> simp [closingOnError]
  unfold connectCalls
  split
  · exact ⟨_, _, List.mem_append_right _ (hclosing _ _)⟩
  · exact ⟨_, _, List.mem_append_right _ (hclosing _ _)⟩

theorem printed_print (message : Message) (world : World) :
    world.printed <+: (world.print message).printed :=
  List.prefix_append _ _

theorem printed_wsta (iResult : Int32) (world : World) :
    world.printed <+: (wsta iResult world).printed := by
  unfold wsta
  split
  · exact printed_print _ _
  · exact List.prefix_rfl

theorem printed_sockCli (result : SOCKET) (lastError : Int32) (world : World) :
    world.printed <+: (sockCli result lastError world).printed := by
  unfold sockCli
  dsimp only
  split
  · exact printed_print _ _
  · exact List.prefix_rfl

theorem printed_callOrClose (connectSocket : SOCKET) (call : Option Int32 → Call)
    (errorText : String) (lastError : Option Int32) (world : World) :
    world.printed <+: (callOrClose connectSocket call errorText lastError world).2.printed := by
  unfold callOrClose
  dsimp only
  split
  · exact printed_print _ _
  · exact List.prefix_rfl

/-- `connect_s` only adds to what has been printed. -/
theorem printed_connectS (ip : List Char) (port : Int32) (connect : ConnectOutcome)
    (world : World) : world.printed <+: (connectS ip port connect world).printed := by
  let start :=
    { world with client := { world.client with serverIp := ip, serverPort := port } }
  let opened := sockCli connect.socket connect.socketError (wsta connect.wsaStartup start)
  have hopened : world.printed <+: opened.printed :=
    (printed_wsta connect.wsaStartup start).trans
      (printed_sockCli connect.socket connect.socketError (wsta connect.wsaStartup start))
  have hconnected : world.printed <+:
      (connectToo opened.client.connectSocket ip port connect.connect opened).2.printed :=
    hopened.trans (printed_callOrClose opened.client.connectSocket _ _ connect.connect opened)
  unfold connectS
  dsimp only
  split
  · exact hconnected.trans (printed_print _ _)
  · exact hconnected.trans (printed_print _ _)

/-- `connect_s` is called exactly when the text is a port, and this is the port that is printed and
handed to `htons`. -/
structure PortRight (outcome : RoundOutcome) (loop : CommandLoop) (ip portText : List Char) :
    Prop where
  called : (∃ next address, ConnectsTo outcome loop next address) ↔ IsPort portText
  same : ∀ next address, ConnectsTo outcome loop next address →
    address.destinationPort.toNat = Nat.ofDigitChars 10 portText 0 ∧
      portLine ip (Nat.ofDigitChars 10 portText 0) ∈ printedSince loop.world next.world

/-- A round that reads a number behind a good address connects there. -/
theorem connectRound_connectsTo (hreads : ReadsEndpoint loop ip portText) (hip : isIPv4 ip = true)
    {port : Int32} (hport : stoi portText = some port) (outcome : RoundOutcome) :
    ∃ next, connectRound outcome loop = .running next ∧
      (∀ address, ConnectsTo outcome loop next address ↔ address = ⟨ip, port⟩) ∧
      connectionLine ip port ∈ printedSince loop.world next.world := by
  obtain ⟨next, hround, hworld⟩ := connectRound_of_stoi_some hreads hip hport outcome
  refine ⟨next, hround, fun address ↦ ?_, ?_⟩
  · have hlog : next.world.log = loop.world.log ++
        connectCalls loop.world.client.connectSocket ip port outcome.connect := by
      rw [hworld, connectS_log]
      rfl
    unfold ConnectsTo
    rw [callsSince_eq hlog]
    constructor
    · rintro ⟨-, socket, lastError, hmember⟩
      exact connect_mem_connectCalls hmember
    · rintro rfl
      exact ⟨hround, exists_connect_mem_connectCalls _ _ _ _⟩
  · obtain ⟨new, hnew⟩ := printed_connectS ip port outcome.connect (beforeConnect loop ip port)
    have hprinted : next.world.printed =
        loop.world.printed ++ (connectHelp :: connectionLine ip port :: new) := by
      rw [hworld, ← hnew]
      simp [beforeConnect, World.print]
    rw [printedSince_eq hprinted]
    simp

theorem portLine_eq {value : ℕ} (hvalue : value ≤ 65535) :
    portLine ip value = connectionLine ip (Int32.ofInt value) := by
  have hnumber : (Int32.ofInt value).toInt = value :=
    Int32.toInt_ofInt_of_le (by omega) (by omega)
  rw [connectionLine, decimal, hnumber]
  rfl

/-- One token is read right exactly when `stoi` throws or the text is a port. -/
theorem portRight_iff (hreads : ReadsEndpoint loop ip portText) (hip : isIPv4 ip = true)
    (outcome : RoundOutcome) :
    PortRight outcome loop ip portText ↔ stoi portText = none ∨ IsPort portText := by
  cases hport : stoi portText with
  | none =>
    have hnone : ∀ next address, ¬ ConnectsTo outcome loop next address := by
      rintro next address ⟨hround, -⟩
      rw [connectRound_of_stoi_none hreads hport outcome] at hround
      cases hround
    have hnoPort : ¬ IsPort portText := by
      intro hisPort
      rw [stoi_of_isPort hisPort] at hport
      cases hport
    refine iff_of_true ⟨iff_of_false ?_ hnoPort, ?_⟩ (.inl rfl)
    · rintro ⟨next, address, hconnects⟩
      exact hnone next address hconnects
    · intro next address hconnects
      exact absurd hconnects (hnone next address)
  | some port =>
    obtain ⟨next, hround, hconnects, hline⟩ := connectRound_connectsTo hreads hip hport outcome
    have hcalled : ∃ next address, ConnectsTo outcome loop next address :=
      ⟨next, ⟨ip, port⟩, (hconnects _).mpr rfl⟩
    constructor
    · intro hright
      exact .inr (hright.called.mp hcalled)
    · rintro (hthrows | hisPort)
      · cases hthrows
      · refine ⟨iff_of_true hcalled hisPort, fun last address hlast ↦ ?_⟩
        have hlastNext : last = next := RoundEnd.running.inj (hlast.1.symm.trans hround)
        rw [hlastNext] at hlast ⊢
        rw [stoi_of_isPort hisPort] at hport
        have hvalue : Int32.ofInt (Nat.ofDigitChars 10 portText 0 : ℕ) = port :=
          Option.some.inj hport
        rw [(hconnects address).mp hlast, portLine_eq hisPort.value, hvalue]
        exact ⟨hvalue ▸ destinationPort_ofNat hisPort.value, hline⟩

/-- Two tokens are read right, and different numbers lead to different destination ports. -/
structure PortsRight (outcome otherOutcome : RoundOutcome) (loop other : CommandLoop)
    (ip portText otherIp otherText : List Char) : Prop where
  first : PortRight outcome loop ip portText
  second : PortRight otherOutcome other otherIp otherText
  distinct : ∀ next otherNext address otherAddress,
    ConnectsTo outcome loop next address →
      ConnectsTo otherOutcome other otherNext otherAddress →
        stoi portText ≠ stoi otherText →
          address.destinationPort ≠ otherAddress.destinationPort

/-- A port is the destination that its text says. -/
theorem stoi_of_portRight (hright : PortRight outcome loop ip portText) {address : ServerAddress}
    (hconnects : ConnectsTo outcome loop next address) :
    stoi portText = some (Int32.ofInt address.destinationPort.toNat) := by
  rw [(hright.same next address hconnects).1]
  exact stoi_of_isPort (hright.called.mp ⟨next, address, hconnects⟩)

/-- **Ports.**  Two tokens with good addresses are read right exactly when for each of them `stoi`
throws or the text behind the colon is a port. -/
theorem portsRight_iff (hreads : ReadsEndpoint loop ip portText)
    (hother : ReadsEndpoint other otherIp otherText) (hip : isIPv4 ip = true)
    (hotherIp : isIPv4 otherIp = true) (outcome otherOutcome : RoundOutcome) :
    PortsRight outcome otherOutcome loop other ip portText otherIp otherText ↔
      (stoi portText = none ∨ IsPort portText) ∧ (stoi otherText = none ∨ IsPort otherText) := by
  rw [← portRight_iff hreads hip outcome, ← portRight_iff hother hotherIp otherOutcome]
  constructor
  · intro hright
    exact ⟨hright.first, hright.second⟩
  · rintro ⟨hfirst, hsecond⟩
    refine ⟨hfirst, hsecond, ?_⟩
    intro next otherNext address otherAddress hconnects hotherConnects hdifferent hsame
    apply hdifferent
    rw [stoi_of_portRight hfirst hconnects, stoi_of_portRight hsecond hotherConnects, hsame]

/-- The loop has read `connect` and is about to read this word. -/
def connectingTo (word : String) : CommandLoop :=
  heard (loopOn ("connect " ++ word ++ "\n"))

theorem portsRight_80_443 :
    PortsRight allSucceed allSucceed (connectingTo "10.0.0.1:80") (connectingTo "10.0.0.2:443")
      "10.0.0.1".toList "80".toList "10.0.0.2".toList "443".toList :=
  (portsRight_iff ⟨by decide, by decide⟩ ⟨by decide, by decide⟩ (by decide) (by decide) allSucceed
    allSucceed).mpr
    ⟨.inr ⟨by decide, List.all_eq_true.mp (by decide), by decide⟩,
      .inr ⟨by decide, List.all_eq_true.mp (by decide), by decide⟩⟩

/-- The number 65616 is connected to, at port 80. -/
theorem port_65616_not_portsRight :
    ¬ PortsRight allSucceed allSucceed (connectingTo "10.0.0.1:65616")
      (connectingTo "10.0.0.1:80") "10.0.0.1".toList "65616".toList "10.0.0.1".toList
      "80".toList := by
  have hlarge : ReadsEndpoint (connectingTo "10.0.0.1:65616") "10.0.0.1".toList "65616".toList :=
    ⟨by decide, by decide⟩
  have hsmall : ReadsEndpoint (connectingTo "10.0.0.1:80") "10.0.0.1".toList "80".toList :=
    ⟨by decide, by decide⟩
  have hlargePort : stoi "65616".toList = some 65616 := by decide
  have hsmallPort : stoi "80".toList = some 80 := by decide
  obtain ⟨next, -, hconnects, -⟩ :=
    connectRound_connectsTo hlarge (by decide) hlargePort allSucceed
  obtain ⟨other, -, hotherConnects, -⟩ :=
    connectRound_connectsTo hsmall (by decide) hsmallPort allSucceed
  intro hright
  refine hright.distinct next other _ _ ((hconnects _).mpr rfl) ((hotherConnects _).mpr rfl) ?_ ?_
  · rw [hlargePort, hsmallPort]
    decide
  · decide

end WinProcessThread.TcpClient

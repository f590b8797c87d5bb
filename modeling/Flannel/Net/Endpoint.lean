import Flannel.Net.RoundTrip

/-!
# UDP endpoints

`net.SplitHostPort` and `net.ResolveUDPAddr` for hosts given by their address.
What a program prints as an address and a port resolves to that port.
-/

namespace Flannel.Net

open Text

structure UDPAddr where
  ip : Option IP
  port : Nat
  deriving DecidableEq

def isBracket (c : Char) : Bool :=
  c == '[' || c == ']'

/-- `net.SplitHostPort`: the text is cut at its last colon, and a host with colons
stands in brackets. -/
def splitHostPort (text : List Char) : Option (List Char × List Char) :=
  match text.reverse.span (· != ':') with
  | (_, []) => none
  | (port, _ :: before) =>
    if port.any isBracket then none
    else
      match before, before.getLast? with
      | ']' :: inside, some '[' =>
        if inside.dropLast.any isBracket then none
        else some (inside.dropLast.reverse, port.reverse)
      | _, _ =>
        if before.any fun c => c == ':' || isBracket c then none
        else some (before.reverse, port.reverse)

def lookupPort (service : List Char) : Option Nat :=
  if service.all isDecimal && numeral 10 service < 65536 then some (numeral 10 service) else none

/-- `net.ResolveUDPAddr` for the network `udp`; the empty text is the unspecified
address and port. -/
def resolveUDPAddr (text : String) : Option UDPAddr :=
  if text.isEmpty then some ⟨none, 0⟩
  else do
    let (host, service) ← splitHostPort text.toList
    let port ← lookupPort service
    if host.isEmpty then some ⟨none, port⟩
    else
      let ip ← parseAddr host
      some ⟨some (.v16 ip.to16), port⟩

example : resolveUDPAddr "[fc00::1]:51821" =
    some ⟨some (.v16 0xfc000000000000000000000000000001#128), 51821⟩ := by
  decide

/-! ## Printed endpoints -/

theorem lookupPort_toDigits {port : Nat} (small : port < 65536) :
    lookupPort (Nat.toDigits 10 port) = some port := by
  have decimal : (Nat.toDigits 10 port).all isDecimal :=
    List.all_eq_true.mpr fun c mem => isDecimal_of_mem_toDigits mem
  simp [lookupPort, decimal, numeral_toDigits, small]

theorem port_notMem {c : Char} (notDecimal : isDecimal c = false) (port : Nat) :
    c ∉ (Nat.toDigits 10 port).reverse := by
  intro mem
  rw [List.mem_reverse] at mem
  exact absurd (isDecimal_of_mem_toDigits mem) (by simp [notDecimal])

theorem any_isBracket_port (port : Nat) : (Nat.toDigits 10 port).reverse.any isBracket = false := by
  rw [List.any_eq_false]
  intro c mem bracket
  rcases Bool.or_eq_true_iff.mp bracket with isOpen | isClose
  · exact port_notMem (by decide) port (beq_iff_eq.mp isOpen ▸ mem)
  · exact port_notMem (by decide) port (beq_iff_eq.mp isClose ▸ mem)

theorem splitHostPort_plain {host : List Char}
    (plain : ∀ c ∈ host, (c == ':' || isBracket c) = false) (port : Nat) :
    splitHostPort (host ++ ':' :: Nat.toDigits 10 port) = some (host, Nat.toDigits 10 port) := by
  have cut : (host ++ ':' :: Nat.toDigits 10 port).reverse.span (· != ':') =
      ((Nat.toDigits 10 port).reverse, ':' :: host.reverse) := by
    rw [List.reverse_append, List.reverse_cons, List.append_assoc, List.singleton_append]
    exact span_separator (port_notMem (by decide) port) _
  have noBracket : (host.reverse.any fun c => c == ':' || isBracket c) = false := by
    rw [List.any_reverse, List.any_eq_false]
    exact fun c mem => by simp [plain c mem]
  rw [splitHostPort, cut]
  simp only [any_isBracket_port, Bool.false_eq_true, if_false]
  split
  · rename_i inside isHost _
    have bracket := plain ']' (List.mem_reverse.mp (isHost ▸ (.head _)))
    simp [isBracket] at bracket
  · simp [noBracket]

theorem splitHostPort_bracketed {host : List Char} (plain : ∀ c ∈ host, isBracket c = false)
    (port : Nat) :
    splitHostPort ('[' :: host ++ ']' :: ':' :: Nat.toDigits 10 port) =
      some (host, Nat.toDigits 10 port) := by
  have cut : ('[' :: host ++ ']' :: ':' :: Nat.toDigits 10 port).reverse.span (· != ':') =
      ((Nat.toDigits 10 port).reverse, ':' :: ']' :: (host.reverse ++ ['['])) := by
    have shape : ('[' :: host ++ ']' :: ':' :: Nat.toDigits 10 port).reverse =
        (Nat.toDigits 10 port).reverse ++ ':' :: ']' :: (host.reverse ++ ['[']) := by
      simp
    rw [shape]
    exact span_separator (port_notMem (by decide) port) _
  have noBracket : host.reverse.any isBracket = false := by
    rw [List.any_reverse, List.any_eq_false]
    exact fun c mem => by simp [plain c mem]
  have opening : (']' :: (host.reverse ++ ['['])).getLast? = some '[' := by
    rw [← List.cons_append, List.getLast?_concat]
  rw [splitHostPort, cut]
  simp only [any_isBracket_port, Bool.false_eq_true, if_false, opening, List.dropLast_concat,
    noBracket, List.reverse_reverse]

theorem resolveUDPAddr_of_split {text : String} {host : List Char} {ip : IP} {port : Nat}
    (cut : splitHostPort text.toList = some (host, Nat.toDigits 10 port))
    (parses : parseAddr host = some ip) (small : port < 65536) :
    resolveUDPAddr text = some ⟨some (.v16 ip.to16), port⟩ := by
  have nonempty : text.isEmpty = false := by
    apply Bool.eq_false_of_not_eq_true
    intro isEmpty
    rw [String.isEmpty_iff.mp isEmpty] at cut
    exact absurd cut (by simp [splitHostPort])
  have hasHost : host ≠ [] := by
    rintro rfl
    simp [parseAddr] at parses
  simp [resolveUDPAddr, nonempty, cut, lookupPort_toDigits small, hasHost, parses]

theorem resolveUDPAddr_dotted {text : String} {port : Nat} (bits : BitVec 32) (small : port < 65536)
    (shape : text.toList = dotted bits ++ ':' :: Nat.toDigits 10 port) :
    resolveUDPAddr text = some ⟨some (.v16 (IP.v4 bits).to16), port⟩ := by
  refine resolveUDPAddr_of_split ?_ (parseAddr_dotted bits) small
  rw [shape]
  exact splitHostPort_plain (forall_mem_dotted (by decide) (by decide) bits) port

theorem resolveUDPAddr_bracketed {text : String} {port : Nat} (ip : IP) (small : port < 65536)
    (shape : text.toList = '[' :: ip.string.toList ++ ']' :: ':' :: Nat.toDigits 10 port) :
    ∃ resolved, resolveUDPAddr text = some ⟨some resolved, port⟩ := by
  cases to4 : ip.to4 with
  | some bits =>
    rw [IP.string, to4, String.toList_ofList] at shape
    refine ⟨_, resolveUDPAddr_of_split ?_ (parseAddr_dotted bits) small⟩
    rw [shape]
    exact splitHostPort_bracketed (forall_mem_dotted (by decide) (by decide) bits) port
  | none =>
    rw [IP.string, to4, String.toList_ofList] at shape
    refine ⟨_, resolveUDPAddr_of_split ?_ (parseAddr_groupsText ip.to16) small⟩
    rw [shape]
    exact splitHostPort_bracketed (forall_mem_groupsText (by decide) (by decide) _) port

end Flannel.Net

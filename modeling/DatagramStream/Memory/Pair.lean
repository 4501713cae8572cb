import DatagramStream.Memory.Host

/-! Two connections against each other over one link. -/

namespace DatagramStream

structure Party where
  engine : Engine
  app : MemoryApp

structure Pair where
  link : Link := {}
  active : Party
  passive : Party

namespace Pair

def step (p : Pair) : Role → Option Pair
  | .active =>
    (Machine.step Policy.inert MemoryHost.host
      ⟨p.active.engine, (), { link := p.link, app := p.active.app }⟩).map fun (m, _) =>
        { p with link := m.host.link, active := ⟨m.engine, m.host.app⟩ }
  | .passive =>
    (Machine.step Policy.inert MemoryHost.host
      ⟨p.passive.engine, (), { link := p.link.swap, app := p.passive.app }⟩).map fun (m, _) =>
        { p with link := m.host.link.swap, passive := ⟨m.engine, m.host.app⟩ }

def round (p : Pair) : Option Pair :=
  match p.step .active with
  | none => p.step .passive
  | some q => some ((q.step .passive).getD q)

def iterate : Nat → Pair → Pair
  | 0, p => p
  | fuel + 1, p =>
    match p.round with
    | none => p
    | some q => iterate fuel q

def patience (p : Pair) : Nat :=
  (2 * (p.active.app.outbound.length + p.passive.app.outbound.length) + 16) * 20

def run (p : Pair) : Pair :=
  p.iterate p.patience

end Pair

end DatagramStream

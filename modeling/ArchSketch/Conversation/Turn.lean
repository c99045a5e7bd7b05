import ArchSketch.Conversation.Design

/-! A conversation about a design: turns in the order they were spoken. It only ever grows at its
end. -/
namespace ArchSketch

inductive Speaker where
  | user
  | assistant
  deriving DecidableEq, Repr

structure Turn where
  text : String
  speaker : Speaker
  design : Option Design
  deriving DecidableEq, Repr

namespace Turn

def user (text : String) : Turn := ⟨text, .user, none⟩

def assistant (text : String) : Turn := ⟨text, .assistant, none⟩

def presenting (text : String) (design : Design) : Turn := ⟨text, .assistant, some design⟩

end Turn

abbrev Conversation := List Turn

def Conversation.add (c : Conversation) (t : Turn) : Conversation := c ++ [t]

end ArchSketch

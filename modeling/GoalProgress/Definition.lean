/-!
# Definitions of challenges and goals

A challenge is a named group of goals. A goal asks for a statistic to reach a target and promises a
reward.
-/
namespace GoalProgress

/-- How progress toward a goal accumulates. -/
inductive GoalKind where
  /-- Progress follows the latest value of the statistic. -/
  | absolute
  /-- Every event adds to progress. -/
  | increment
  /-- An event counts at most once a day. -/
  | daily
deriving DecidableEq, Repr

/-- The events that drive a goal. -/
inductive EventSource where
  | login
  | statistic
deriving DecidableEq, Repr

/-- What is given for a goal. -/
inductive RewardKind where
  | item
  | wallet
deriving DecidableEq, Repr

namespace GoalKind

/-- The name by which a kind is written and read. -/
def name : GoalKind → String
  | .absolute => "absolute"
  | .increment => "increment"
  | .daily => "daily"

/-- Every kind of goal. -/
def all : List GoalKind := [.absolute, .increment, .daily]

end GoalKind

namespace EventSource

/-- The name by which a source is written and read. -/
def name : EventSource → String
  | .login => "login"
  | .statistic => "statistic"

/-- Every source of events. -/
def all : List EventSource := [.login, .statistic]

end EventSource

namespace RewardKind

/-- The name by which a kind is written and read. -/
def name : RewardKind → String
  | .item => "ITEM"
  | .wallet => "WALLET"

/-- Every kind of reward. -/
def all : List RewardKind := [.item, .wallet]

end RewardKind

/-- The value that a statistic has to reach. -/
structure Requirement where
  statCode : String
  operator : String := ">="
  targetValue : Int32
deriving DecidableEq

/-- What a user can claim for a completed goal. -/
structure Reward where
  kind : RewardKind
  rewardId : String
  quantity : Int32
deriving DecidableEq

/-- A single objective that a user can complete and claim. -/
structure Goal where
  id : String
  name : String
  description : String := ""
  kind : GoalKind := .absolute
  eventSource : EventSource := .statistic
  requirement : Requirement
  reward : Reward
  prerequisites : List String := []
deriving DecidableEq

/-- A named group of goals. -/
structure Challenge where
  id : String
  name : String
  description : String := ""
  goals : List Goal := []
deriving DecidableEq

end GoalProgress

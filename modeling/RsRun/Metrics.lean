import RsRun.Lib.Gauges

/-!
# The thread metrics

Two vectors of gauges under the name of a thread, and the callbacks that `Builder::build`
gives to tokio, each made with the thread name of its builder.
-/

namespace RsRun

/-- The statics of the crate: `IntGaugeVec`s with the one label `thread_name`, of `AtomicI64`s. -/
structure Metrics where
  /-- `METRIC_RUNTIME_THREADS_ALIVE`. -/
  threadsAlive : Gauges String 64
  /-- `METRIC_RUNTIME_THREADS_IDLE`. -/
  threadsIdle : Gauges String 64

/-- `on_thread_start`. -/
def onThreadStart (threadName : String) (m : Metrics) : Metrics :=
  { m with threadsAlive := m.threadsAlive.inc threadName }

/-- `on_thread_stop`. -/
def onThreadStop (threadName : String) (m : Metrics) : Metrics :=
  { m with threadsAlive := m.threadsAlive.dec threadName }

/-- `on_thread_park`. -/
def onThreadPark (threadName : String) (m : Metrics) : Metrics :=
  { m with threadsIdle := m.threadsIdle.inc threadName }

/-- `on_thread_unpark`. -/
def onThreadUnpark (threadName : String) (m : Metrics) : Metrics :=
  { m with threadsIdle := m.threadsIdle.dec threadName }

end RsRun

import OrdersDemo.Metrics
import OrdersDemo.SendAdmission
import OrdersDemo.SendCompletion
import OrdersDemo.ConsumeShutdown
import OrdersDemo.ConsumeTotals
import OrdersDemo.RuntimeValidation
import OrdersDemo.ServiceGate
import OrdersDemo.LabelBounds
import OrdersDemo.PublishTotals
import OrdersDemo.PublishKeyOrder
import OrdersDemo.SendDeliveries
import OrdersDemo.OrderIndex
import OrdersDemo.SlowOrders
import OrdersDemo.OrderOutcome
import OrdersDemo.HeaderRoundTrip
import OrdersDemo.ProductionRate
import OrdersDemo.TimedSend
import OrdersDemo.SendPacing
import OrdersDemo.RateReports
import OrdersDemo.SmokeGate
import OrdersDemo.WorkloadKeys
import OrdersDemo.OneshotNames
import OrdersDemo.RowRoundTrip
import OrdersDemo.TopicAccounting
import OrdersDemo.OrderCounts
import OrdersDemo.CrossService
import OrdersDemo.SmokeStack
import OrdersDemo.BootstrapLaw
import OrdersDemo.QualifyLaw
import OrdersDemo.ImageVerdicts
import OrdersDemo.WorkloadTable
